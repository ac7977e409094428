import Mathlib.Tactic.Tauto
import Mergepay.Auth.RefreshToken

namespace Mergepay.Auth

open Concurrency

-- How tokens and the table change

-- Columns that are never updated.
def RefreshToken.fixed (t : RefreshToken) : String × String × String × String × Option String :=
  (t.id, t.tokenHash, t.familyId, t.userId, t.predecessor)

-- A row as it may be found later on. It cannot be redeemed again once that has become impossible.
structure RefreshToken.Older (t t' : RefreshToken) : Prop where
  fixed   : t'.fixed = t.fixed
  rotated : t.rotatedAt.isSome → t'.rotatedAt.isSome
  live    : t'.live = true → t.live = true

namespace RefreshToken.Older

variable {t t₁ t₂ t₃ : RefreshToken}

theorem refl : t.Older t :=
  ⟨rfl, fun h => h, fun h => h⟩

theorem trans (h₁ : t₁.Older t₂) (h₂ : t₂.Older t₃) : t₁.Older t₃ :=
  ⟨h₂.fixed.trans h₁.fixed, h₂.rotated ∘ h₁.rotated, h₁.live ∘ h₂.live⟩

theorem id_eq (h : t₁.Older t₂) : t₂.id = t₁.id :=
  (Prod.ext_iff.mp h.fixed).1

theorem tokenHash_eq (h : t₁.Older t₂) : t₂.tokenHash = t₁.tokenHash :=
  (Prod.ext_iff.mp (Prod.ext_iff.mp h.fixed).2).1

theorem familyId_eq (h : t₁.Older t₂) : t₂.familyId = t₁.familyId :=
  (Prod.ext_iff.mp (Prod.ext_iff.mp (Prod.ext_iff.mp h.fixed).2).2).1

theorem userId_eq (h : t₁.Older t₂) : t₂.userId = t₁.userId :=
  (Prod.ext_iff.mp (Prod.ext_iff.mp (Prod.ext_iff.mp (Prod.ext_iff.mp h.fixed).2).2).2).1

theorem predecessor_eq (h : t₁.Older t₂) : t₂.predecessor = t₁.predecessor :=
  (Prod.ext_iff.mp (Prod.ext_iff.mp (Prod.ext_iff.mp (Prod.ext_iff.mp h.fixed).2).2).2).2

end RefreshToken.Older

namespace TokenStore

-- Rows are never deleted.
def Grows (s s' : TokenStore) : Prop :=
  ∀ t ∈ s.tokens, ∃ t' ∈ s'.tokens, t.Older t'

variable {s s₁ s₂ s₃ : TokenStore}

theorem Grows.refl : s.Grows s :=
  fun t ht => ⟨t, ht, .refl⟩

theorem Grows.trans (h₁ : s₁.Grows s₂) (h₂ : s₂.Grows s₃) : s₁.Grows s₃ := fun t ht =>
  have ⟨t', ht', h⟩ := h₁ t ht
  have ⟨t'', ht'', h'⟩ := h₂ t' ht'
  ⟨t'', ht'', h.trans h'⟩

theorem grows_update {p : RefreshToken → Bool} {f : RefreshToken → RefreshToken}
    (hf : ∀ t : RefreshToken, t.Older (f t)) : s.Grows { s with tokens := Table.update p f s.tokens } := by
  intro t ht
  refine ⟨_, Table.mem_update.mpr ⟨t, ht, rfl⟩, ?_⟩
  split
  · exact hf t
  · exact .refl

theorem grows_effect (a : TokenAction) : s.Grows (tokenEffect a s) := by
  cases a with
  | create row => exact fun t ht => ⟨t, List.mem_append_left _ ht, .refl⟩
  | claim id now =>
    exact grows_update fun t => ⟨rfl, fun _ => rfl, fun h => by simp [RefreshToken.live] at h⟩
  | revoke ids now =>
    exact grows_update fun t => ⟨rfl, fun h => h, fun h => by simp [RefreshToken.live] at h⟩
  | revokeLive ids now =>
    exact grows_update fun t => ⟨rfl, fun h => h, fun h => by simp [RefreshToken.live] at h⟩
  | _ => exact .refl

theorem grows_view {log : TokenLog} : s.Grows (tokenDatabase.view log s) := by
  rw [Database.view_eq]
  generalize Log.performed log = as
  induction as generalizing s with
  | nil          => exact .refl
  | cons a as hi => exact (grows_effect a).trans hi

-- Identifiers and hashes are unique, and all tokens of a family belong to one user. Every token has at
-- most one successor, and has been rotated then. At most one token of a family can be redeemed.
structure Chained (s : TokenStore) : Prop where
  ids       : (s.tokens.map (·.id)).Nodup
  hashes    : (s.tokens.map (·.tokenHash)).Nodup
  users     : ∀ t₁ ∈ s.tokens, ∀ t₂ ∈ s.tokens, t₁.familyId = t₂.familyId → t₁.userId = t₂.userId
  successor : ∀ t₁ ∈ s.tokens, ∀ t₂ ∈ s.tokens, ∀ id ∈ t₁.predecessor, id ∈ t₂.predecessor → t₁ = t₂
  rotated   : ∀ t ∈ s.tokens, ∀ id ∈ t.predecessor,
    ∃ t' ∈ s.tokens, t'.id = id ∧ t'.rotatedAt.isSome
  live      : ∀ t₁ ∈ s.tokens, ∀ t₂ ∈ s.tokens, t₁.live = true → t₂.live = true →
    t₁.familyId = t₂.familyId → t₁ = t₂

theorem Chained.eq_of_id (h : s.Chained) {t₁ t₂ : RefreshToken} (h₁ : t₁ ∈ s.tokens) (h₂ : t₂ ∈ s.tokens)
    (hi : t₁.id = t₂.id) : t₁ = t₂ :=
  List.inj_on_of_nodup_map h.ids h₁ h₂ hi

theorem Chained.token_of_mem (h : s.Chained) {t : RefreshToken} (ht : t ∈ s.tokens) :
    s.token t.id = some t :=
  Table.row?_of_mem h.ids ht

-- An update that leaves the fixed columns alone, and that does not bring any token back.
theorem Chained.update {p : RefreshToken → Bool} {f : RefreshToken → RefreshToken} (h : s.Chained)
    (hf : ∀ t : RefreshToken, t.Older (f t)) : Chained { s with tokens := Table.update p f s.tokens } := by
  have old {t : RefreshToken} (ht : t ∈ Table.update p f s.tokens) : ∃ t₀ ∈ s.tokens, t₀.Older t ∧
      t = if p t₀ then f t₀ else t₀ := by
    have ⟨t₀, h₀, he⟩ := Table.mem_update.mp ht
    refine ⟨t₀, h₀, ?_, he.symm⟩
    rw [← he]
    split
    · exact hf t₀
    · exact .refl
  have same {t₁ t₂ u₁ u₂ : RefreshToken} (hu : u₁ = u₂) (h₁ : t₁ = if p u₁ then f u₁ else u₁)
      (h₂ : t₂ = if p u₂ then f u₂ else u₂) : t₁ = t₂ := by rw [h₁, h₂, hu]
  refine ⟨?_, ?_, fun t₁ h₁ t₂ h₂ he => ?_, fun t₁ h₁ t₂ h₂ id hid₁ hid₂ => ?_, fun t ht id hid => ?_,
    fun t₁ h₁ t₂ h₂ hl₁ hl₂ he => ?_⟩
  · exact (Table.map_update (g := (·.id)) fun t => (hf t).id_eq).symm ▸ h.ids
  · exact (Table.map_update (g := (·.tokenHash)) fun t => (hf t).tokenHash_eq).symm ▸ h.hashes
  · have ⟨u₁, hu₁, ho₁, _⟩ := old h₁
    have ⟨u₂, hu₂, ho₂, _⟩ := old h₂
    rw [ho₁.userId_eq, ho₂.userId_eq]
    exact h.users u₁ hu₁ u₂ hu₂ (ho₁.familyId_eq.symm.trans <| he.trans ho₂.familyId_eq)
  · have ⟨u₁, hu₁, ho₁, he₁⟩ := old h₁
    have ⟨u₂, hu₂, ho₂, he₂⟩ := old h₂
    exact same (h.successor u₁ hu₁ u₂ hu₂ id (ho₁.predecessor_eq ▸ hid₁) (ho₂.predecessor_eq ▸ hid₂))
      he₁ he₂
  · have ⟨u, hu, ho, _⟩ := old ht
    have ⟨u', hu', hi', hr'⟩ := h.rotated u hu id (ho.predecessor_eq ▸ hid)
    have ⟨t', ht', ho'⟩ := grows_update (s := s) (p := p) hf u' hu'
    exact ⟨t', ht', ho'.id_eq.trans hi', ho'.rotated hr'⟩
  · have ⟨u₁, hu₁, ho₁, he₁⟩ := old h₁
    have ⟨u₂, hu₂, ho₂, he₂⟩ := old h₂
    have hf' := ho₁.familyId_eq.symm.trans <| he.trans ho₂.familyId_eq
    exact same (h.live u₁ hu₁ u₂ hu₂ (ho₁.live hl₁) (ho₂.live hl₂) hf') he₁ he₂

-- A new row whose family has no other token that can be redeemed.
theorem Chained.append {row : RefreshToken} (h : s.Chained) (ha : tokenAdmits (.create row) s = true)
    (hu : ∀ t ∈ s.tokens, t.familyId = row.familyId → t.userId = row.userId)
    (hs : ∀ id ∈ row.predecessor, ∀ t ∈ s.tokens, id ∉ t.predecessor)
    (hr : ∀ id ∈ row.predecessor, ∃ t ∈ s.tokens, t.id = id ∧ t.rotatedAt.isSome)
    (hl : ∀ t ∈ s.tokens, t.familyId = row.familyId → t.live ≠ true) :
    Chained { s with tokens := s.tokens ++ [row] } := by
  have ⟨hnew, hhash, _⟩ := of_decide_eq_true ha
  have cases_mem {t : RefreshToken} (ht : t ∈ s.tokens ++ [row]) : t ∈ s.tokens ∨ t = row := by
    simpa using ht
  refine ⟨?_, ?_, fun t₁ h₁ t₂ h₂ he => ?_, fun t₁ h₁ t₂ h₂ id hid₁ hid₂ => ?_, fun t ht id hid => ?_,
    fun t₁ h₁ t₂ h₂ hl₁ hl₂ he => ?_⟩
  · rw [List.map_append]
    exact h.ids.append (List.nodup_singleton _) (by simpa using hnew)
  · rw [List.map_append]
    exact h.hashes.append (List.nodup_singleton _) (by simpa using hhash)
  · rcases cases_mem h₁ with k₁ | rfl <;> rcases cases_mem h₂ with k₂ | rfl
    case inl.inl => exact h.users t₁ k₁ t₂ k₂ he
    case inl.inr => exact hu t₁ k₁ he
    case inr.inl => exact (hu t₂ k₂ he.symm).symm
    case inr.inr => rfl
  · rcases cases_mem h₁ with k₁ | rfl <;> rcases cases_mem h₂ with k₂ | rfl
    case inl.inl => exact h.successor t₁ k₁ t₂ k₂ id hid₁ hid₂
    case inl.inr => exact (hs id hid₂ t₁ k₁ hid₁).elim
    case inr.inl => exact (hs id hid₁ t₂ k₂ hid₂).elim
    case inr.inr => rfl
  · have ⟨t', ht', hi⟩ : ∃ t' ∈ s.tokens, t'.id = id ∧ t'.rotatedAt.isSome := by
      rcases cases_mem ht with kt | rfl
      case inl => exact h.rotated t kt id hid
      case inr => exact hr id hid
    exact ⟨t', List.mem_append_left _ ht', hi⟩
  · rcases cases_mem h₁ with k₁ | rfl <;> rcases cases_mem h₂ with k₂ | rfl
    case inl.inl => exact h.live t₁ k₁ t₂ k₂ hl₁ hl₂ he
    case inl.inr => exact (hl t₁ k₁ he hl₁).elim
    case inr.inl => exact (hl t₂ k₂ he.symm hl₂).elim
    case inr.inr => rfl

theorem not_live_of_rotated {t : RefreshToken} (h : t.rotatedAt.isSome) : t.live ≠ true := by
  intro hl
  have hn := (of_decide_eq_true hl).1
  rw [Option.isNone_iff_eq_none] at hn
  simp [hn] at h

theorem claimed {id : String} {now : Time} (ha : tokenAdmits (.claim id now) s = true) :
    ∃ t ∈ s.tokens, t.id = id ∧ t.live = true :=
  have ⟨t, ht, hl⟩ := (Option.any_eq_true ..).mp ha
  ⟨t, Table.mem_of_row? ht, Table.key_of_row? ht, hl⟩

-- The exchange of a token for its successor.
theorem Chained.exchange {row t₀ : RefreshToken} {id : String} {now : Time} (h : s.Chained)
    (h₀ : t₀ ∈ s.tokens) (hid : t₀.id = id) (hfam : t₀.familyId = row.familyId)
    (huser : t₀.userId = row.userId) (hp : row.predecessor = some id)
    (hc : tokenAdmits (.claim id now) s = true)
    (ha : tokenAdmits (.create row) (tokenEffect (.claim id now) s) = true) :
    Chained (tokenEffect (.create row) (tokenEffect (.claim id now) s)) := by
  have ⟨t, ht, hti, hl⟩ := claimed hc
  obtain rfl : t = t₀ := h.eq_of_id ht h₀ (hti.trans hid.symm)
  have old (t : RefreshToken) : t.Older { t with rotatedAt := some now } :=
    ⟨rfl, fun _ => rfl, fun h => by simp [RefreshToken.live] at h⟩
  have h₁ : Chained (tokenEffect (.claim id now) s) := h.update old
  -- A row is either the one that has been claimed, or as it was before.
  have back {u : RefreshToken} (hu : u ∈ (tokenEffect (.claim id now) s).tokens) :
      ∃ u₀ ∈ s.tokens, u₀.Older u ∧ (u₀.id = id → u.rotatedAt.isSome) := by
    have ⟨u₀, h₀, he⟩ := Table.mem_update.mp hu
    refine ⟨u₀, h₀, ?_⟩
    split at he
    case isTrue  => exact he ▸ ⟨old u₀, fun _ => rfl⟩
    case isFalse hn => exact he ▸ ⟨.refl, fun hi => (hn <| decide_eq_true hi).elim⟩
  refine h₁.append ha (fun u hu he => ?_) (fun id' hid' u hu hm => ?_) (fun id' hid' => ?_)
    (fun u hu he => ?_)
  · have ⟨u₀, hu₀, ho, _⟩ := back hu
    rw [ho.userId_eq, ← huser]
    exact h.users u₀ hu₀ t ht (ho.familyId_eq.symm.trans <| he.trans hfam.symm)
  · cases hp ▸ hid'
    have ⟨u₀, hu₀, ho, _⟩ := back hu
    have ⟨t', ht', hi', hr⟩ := h.rotated u₀ hu₀ id (ho.predecessor_eq ▸ hm)
    obtain rfl := h.eq_of_id ht' ht (hi'.trans hti.symm)
    exact not_live_of_rotated hr hl
  · cases hp ▸ hid'
    have ⟨t', ht', ho⟩ := grows_effect (s := s) (.claim id now) t ht
    have ⟨u₀, hu₀, ho', hr⟩ := back ht'
    exact ⟨t', ht', ho.id_eq.trans hti, hr <| ho'.id_eq.symm.trans <| ho.id_eq.trans hti⟩
  · have ⟨u₀, hu₀, ho, hr⟩ := back hu
    intro hlu
    have hu₀ := h.live u₀ hu₀ t ht (ho.live hlu) hl
      (ho.familyId_eq.symm.trans <| he.trans hfam.symm)
    exact not_live_of_rotated (hr <| hu₀ ▸ hti) hlu

-- The first token of a family.
theorem Chained.first {row : RefreshToken} (h : s.Chained) (hp : row.predecessor = none)
    (ha : tokenAdmits (.create row) s = true) : Chained (tokenEffect (.create row) s) := by
  have hf := (of_decide_eq_true ha).2.2 hp
  have fresh {t : RefreshToken} (ht : t ∈ s.tokens) (he : t.familyId = row.familyId) : False :=
    hf <| he ▸ List.mem_map_of_mem ht
  refine h.append ha (fun t ht he => (fresh ht he).elim) ?_ ?_ (fun t ht he => (fresh ht he).elim)
  · simp [hp]
  · simp [hp]

end TokenStore

-- What the transactions write

def TokenAction.writes : TokenAction → Bool
  | revoke _ _ | revokeLive _ _ | claim _ _ | create _ => true
  | _ => false

theorem effect_of_reads (a : TokenAction) (s : TokenStore) (h : a.writes = false) :
    tokenDatabase.effect a s = s ∧ tokenDatabase.admits a s = true := by
  cases a <;> first | exact ⟨rfl, rfl⟩ | cases h

def written (log : TokenLog) : List TokenAction :=
  log.performed.filter (·.writes)

@[simp]
theorem written_append (l₁ l₂ : TokenLog) : written (l₁ ++ l₂) = written l₁ ++ written l₂ := by
  simp [written]

theorem view_written (log : TokenLog) (s : TokenStore) :
    tokenDatabase.view log s = (written log).foldl (fun s a => tokenEffect a s) s :=
  Database.view_filter effect_of_reads

theorem admitted_written {log : TokenLog} {s : TokenStore} (h : tokenDatabase.admitted log s = true) :
    tokenDatabase.allowed (written log) s = true :=
  Database.admitted_filter effect_of_reads ▸ h

-- Whoever exchanges a token knows where it belongs.
inductive Writes (s : TokenStore) : List TokenAction → Prop
  | nothing : Writes s []
  | issued : row.predecessor = none → Writes s [.create row]
  | revoked : Writes s [.revoke ids now]
  | loggedOut : Writes s [.revokeLive ids now]
  | exchanged {id : String} : t ∈ s.tokens → t.id = id → t.familyId = row.familyId → t.userId = row.userId →
    row.predecessor = some id → Writes s [.claim id now, .create row]

theorem Writes.keeps {as : List TokenAction} {s : TokenStore} (hw : Writes s as) (h : s.Chained)
    (ha : tokenDatabase.allowed as s = true) : (as.foldl (fun s a => tokenEffect a s) s).Chained := by
  have revoked (now : Time) (t : RefreshToken) : t.Older { t with revokedAt := some now } :=
    ⟨rfl, fun h => h, fun h => by simp [RefreshToken.live] at h⟩
  cases hw with
  | nothing   => exact h
  | revoked   => exact h.update (revoked _)
  | loggedOut => exact h.update (revoked _)
  | issued hp => exact h.first hp ((Bool.and_eq_true ..).mp ha).1
  | exchanged ht hi hf hu hp =>
    have ⟨hc, ha⟩ := (Bool.and_eq_true ..).mp ha
    exact h.exchange ht hi hf hu hp hc ((Bool.and_eq_true ..).mp ha).1

variable {D : TokenDeps} {l : TokenLog} {stored : RefreshToken} {now : Time}

theorem issueRefreshToken_done (h : (issueRefreshToken D userId).After l (.done r)) :
    ∃ row : RefreshToken, written l = [.create row] ∧ row.predecessor = none := by
  obtain ⟨l₁, _, now, rfl, h₁, k₁⟩ := h.bind_done
  obtain ⟨l₂, _, token, rfl, h₂, k₂⟩ := k₁.bind_done
  obtain ⟨l₃, _, familyId, rfl, h₃, k₃⟩ := k₂.bind_done
  obtain ⟨l₄, _, id, rfl, h₄, k₄⟩ := k₃.bind_done
  obtain ⟨l₅, _, _, rfl, h₅, k₅⟩ := k₄.bind_done
  rw [h₁.of_perform, h₂.of_perform, h₃.of_perform, h₄.of_perform, h₅.of_perform, k₅.of_done.1]
  exact ⟨_, rfl, rfl⟩

theorem revokeFamily_done (h : (revokeFamily familyId now).After l (.done r)) :
    ∃ ids, l = [⟨.findUnrevoked familyId, .ok ids⟩, ⟨.revoke ids now, .ok ()⟩] := by
  obtain ⟨l₁, _, ids, rfl, h₁, k₁⟩ := h.bind_done
  rw [h₁.of_perform, k₁.of_perform]
  exact ⟨ids, rfl⟩

theorem revokeAllForUser_done (h : (revokeAllForUser userId).After l (.done r)) :
    ∃ now ids, l = [⟨.now, .ok now⟩, ⟨.findLive userId, .ok ids⟩, ⟨.revokeLive ids now, .ok ()⟩] := by
  obtain ⟨l₁, _, now, rfl, h₁, k₁⟩ := h.bind_done
  obtain ⟨l₂, _, ids, rfl, h₂, k₂⟩ := k₁.bind_done
  rw [h₁.of_perform, h₂.of_perform, k₂.of_perform]
  exact ⟨now, ids, rfl⟩

theorem lookUpToken_done (h : (lookUpToken D presented).After l (.done r)) :
    l = [⟨.now, .ok r.1⟩, ⟨.findByHash (D.hashToken presented), .ok r.2⟩] := by
  obtain ⟨l₁, _, now, rfl, h₁, k₁⟩ := h.bind_done
  obtain ⟨l₂, _, stored, rfl, h₂, k₂⟩ := k₁.bind_done
  obtain ⟨rfl, hr⟩ := k₂.of_done
  cases hr
  rw [h₁.of_perform, h₂.of_perform]
  rfl

theorem lookUpToken_fail (h : (lookUpToken D presented).After l (.fail e)) : ∃ a, ⟨a, .error e⟩ ∈ l := by
  rcases h.bind_fail with h | ⟨l₁, l₂, _, rfl, h₁, k₁⟩
  case inl => exact h.of_perform_fail ▸ ⟨_, .head _⟩
  rcases k₁.bind_fail with h | ⟨l₂, l₃, _, rfl, h₂, k₂⟩
  case inl => exact h.of_perform_fail ▸ ⟨_, List.mem_append_right _ (.head _)⟩
  case inr => cases k₂.of_done.2

theorem revokeFamily_fail (h : (revokeFamily familyId now).After l (.fail e)) :
    ∃ a, ⟨a, .error e⟩ ∈ l := by
  rcases h.bind_fail with h | ⟨l₁, l₂, _, rfl, h₁, k₁⟩
  case inl => exact h.of_perform_fail ▸ ⟨_, .head _⟩
  case inr => exact k₁.of_perform_fail ▸ ⟨_, List.mem_append_right _ (.head _)⟩

theorem claimToken_done {id : String} (h : (claimToken id now).After l (.done n)) :
    (n = 1 ∧ l = [⟨.claim id now, .ok ()⟩]) ∨ (n = 0 ∧ l = [⟨.claim id now, .error .noneMatched⟩]) := by
  obtain ⟨l₁, l₂, r, rfl, h₁, h₂⟩ := h.bind_done
  rcases h₁.attempt_done with ⟨v, rfl, hv⟩ | ⟨e, rfl, he⟩
  case inl =>
    obtain ⟨rfl, hn⟩ := h₂.of_done
    cases hn
    exact .inl ⟨rfl, by rw [hv.of_perform]; rfl⟩
  case inr =>
    simp only at h₂
    split at h₂
    case isFalse => exact h₂.not_fail.elim
    case isTrue hn =>
      obtain ⟨rfl, hd⟩ := h₂.of_done
      cases hd
      exact .inr ⟨rfl, by rw [he.of_perform_fail, hn]; rfl⟩

theorem exchangeToken_done (h : (exchangeToken D stored now).After l (.done r)) :
    ∃ row : RefreshToken, written l = [.claim stored.id now, .create row] ∧
      row.predecessor = some stored.id ∧ row.familyId = stored.familyId ∧
      row.userId = stored.userId := by
  obtain ⟨l₁, _, n, rfl, h₁, k₁⟩ := h.bind_done
  rcases claimToken_done h₁ with ⟨rfl, rfl⟩ | ⟨rfl, rfl⟩
  case inr => exact k₁.not_fail.elim
  case inl =>
    obtain ⟨l₂, _, token, rfl, h₂, k₂⟩ := k₁.bind_done
    obtain ⟨l₃, _, id, rfl, h₃, k₃⟩ := k₂.bind_done
    obtain ⟨l₄, _, _, rfl, h₄, k₄⟩ := k₃.bind_done
    rw [h₂.of_perform, h₃.of_perform, h₄.of_perform, k₄.of_done.1]
    exact ⟨_, rfl, rfl, rfl, rfl⟩

theorem claimToken_fail {id : String} (h : (claimToken id now).After l (.fail e)) :
    l = [⟨.claim id now, .error e⟩] := by
  rcases h.bind_fail with h | ⟨l₁, l₂, r, rfl, h₁, h₂⟩
  case inl => exact (Prog.After.attempt_not_fail h).elim
  case inr =>
    rcases h₁.attempt_done with ⟨v, rfl, hv⟩ | ⟨e', rfl, he⟩
    case inl => cases h₂.of_done.2
    case inr =>
      simp only at h₂
      split at h₂
      case isTrue => cases h₂.of_done.2
      case isFalse =>
        obtain ⟨rfl, hd⟩ := h₂.of_fail
        cases hd
        rw [he.of_perform_fail]
        rfl

-- The error of an exchange is that of a statement, unless the race for the token is lost.
theorem exchangeToken_fail (h : (exchangeToken D stored now).After l (.fail e)) :
    (∃ a, ⟨a, .error e⟩ ∈ l) ∨
    (e = .rejected .reused ∧ l = [⟨.claim stored.id now, .error .noneMatched⟩]) := by
  rcases h.bind_fail with h | ⟨l₁, l₂, n, rfl, h₁, k₁⟩
  case inl =>
    rw [claimToken_fail h]
    exact .inl ⟨_, .head _⟩
  case inr =>
    rcases claimToken_done h₁ with ⟨rfl, rfl⟩ | ⟨rfl, rfl⟩
    case inr =>
      obtain ⟨rfl, he⟩ := Prog.After.of_fail k₁
      cases he
      exact .inr ⟨rfl, rfl⟩
    case inl =>
      refine .inl ?_
      rcases k₁.bind_fail with h₂ | ⟨l₂, l₃, token, rfl, h₂, k₂⟩
      case inl =>
        rw [h₂.of_perform_fail]
        exact ⟨_, .tail _ (.head _)⟩
      rcases k₂.bind_fail with h₃ | ⟨l₃, l₄, id, rfl, h₃, k₃⟩
      case inl =>
        rw [h₃.of_perform_fail]
        exact ⟨_, List.mem_append_right _ <| List.mem_append_right _ (.head _)⟩
      rcases k₃.bind_fail with h₄ | ⟨l₄, l₅, _, rfl, h₄, k₄⟩
      case inl =>
        rw [h₄.of_perform_fail]
        exact ⟨_, List.mem_append_right _ <| List.mem_append_right _ <| List.mem_append_right _ (.head _)⟩
      case inr => cases k₄.of_done.2

theorem tokenAnswer_error {a : TokenAction} {s : TokenStore} {e : TokenError} {reason : RefreshFailure}
    (h : tokenAnswer a x s = some (.error e)) : e ≠ .rejected reason := by
  rintro rfl
  cases a <;> cases x <;> simp only [tokenAnswer, Option.some.injEq, reduceCtorEq] at h
  all_goals first
    | cases h
    | (split at h <;> cases h)

-- A protocol for redemptions

-- What has been found out about a token.
def TokenStore.Knows (s : TokenStore) (stored : RefreshToken) : Prop :=
  ∃ t ∈ s.tokens, stored.Older t

theorem TokenStore.Knows.later {s s' : TokenStore} (h : s.Knows stored) (hg : s.Grows s') :
    s'.Knows stored :=
  have ⟨t, ht, ho⟩ := h
  have ⟨t', ht', ho'⟩ := hg t ht
  ⟨t', ht', ho.trans ho'⟩

abbrev TokenStep :=
  Database.Step TokenRequest TokenAction TokenAction.Answer TokenError

-- `R` is what has to hold when a token is reported to have been used before.
def tokenDue (R : String → TokenStore → Prop) : TokenStep → TokenStore → Prop
  | .act _ _ (.respond presented outcome), s => outcome = .error (.rejected .reused) → R presented s
  | .act _ _ _, _                            => True
  | .commit i log, s                         => Writes s (written log) ∧
    ∀ userId, i = .revokeAllForUser userId →
      ∃ now ids, log = [⟨.now, .ok now⟩, ⟨.findLive userId, .ok ids⟩, ⟨.revokeLive ids now, .ok ()⟩]

def tokenProtocol (D : TokenDeps) (C : TokenStep → TokenStore → Prop)
    (R : String → TokenStore → Prop) : Protocol (tokenSystem D) :=
  Database.protocol C (tokenDue R) TokenStore.Chained
    (fun _ log s hi _ hd ha => view_written log s ▸ hd.1.keeps hi (admitted_written ha))
    (fun t s s' hi he => by
      simp only [tokenEnv, Option.ite_none_right_eq_some, Option.some.injEq] at he
      exact he.2 ▸ ⟨hi.ids, hi.hashes, hi.users, hi.successor, hi.rotated, hi.live⟩)

variable {C : TokenStep → TokenStore → Prop} {R : String → TokenStore → Prop} {s s' : TokenStore}

theorem grows_of_evolves {B : TokenStep → TokenStore → Prop} (h : (tokenSystem D).Evolves B s s') :
    s.Grows s' := by
  induction h with
  | refl => exact .refl
  | env _ he hi =>
    simp only [tokenSystem, Database.server, tokenEnv, Option.ite_none_right_eq_some,
      Option.some.injEq] at he
    exact hi.trans <| he.2 ▸ .refl
  | @act a x _ s₂ s₃ r _ _ hx hi =>
    refine hi.trans ?_
    cases a with
    | act i log a => exact (Database.exec_act hx).1 ▸ .refl
    | commit i log =>
      rcases (Database.exec_commit hx).2 with ⟨_, hs⟩ | ⟨_, _, hs, _⟩
      case inl => exact hs ▸ TokenStore.grows_view
      case inr => exact hs ▸ .refl

-- What has to be shown about reports of reuse.
structure Reports (D : TokenDeps) (C : TokenStep → TokenStore → Prop) (R : String → TokenStore → Prop) :
    Prop where
  later {presented : String} {s s' : TokenStore} : R presented s → s.Chained →
    (tokenSystem D).Evolves (tokenProtocol D C R).cond s s' → R presented s'
  revoked {presented : String} {stored : RefreshToken} {ids : List String} {now : Time}
    {s : TokenStore} : s.Chained → s.Knows stored → stored.tokenHash = D.hashToken presented →
    C (.commit (.rotate presented)
      [⟨.findUnrevoked stored.familyId, .ok ids⟩, ⟨.revoke ids now, .ok ()⟩]) s →
    R presented (tokenEffect (.revoke ids now) s)
  lost {presented : String} {stored : RefreshToken} {now : Time} {s : TokenStore} : s.Chained →
    s.Knows stored → stored.tokenHash = D.hashToken presented →
    C (.act (.rotate presented) [] (.claim stored.id now)) s →
    tokenAdmits (.claim stored.id now) s ≠ true → R presented s

def TokenAction.Responds : TokenAction → Prop
  | respond _ _ => True
  | _           => False

theorem due_act {i : TokenRequest} {log : TokenLog} {a : TokenAction} (h : ¬a.Responds) :
    (tokenProtocol D C R).due (.act i log a) s := by
  cases a <;> first | trivial | exact (h trivial).elim

theorem issueRefreshToken_avoids : (issueRefreshToken D userId).Avoids TokenAction.Responds := by
  refine .bind (.perform id) fun _ => .bind (.perform id) fun _ => .bind (.perform id) fun _ => ?_
  exact .bind (.perform id) fun _ => .bind (.perform id) fun _ => .done _

theorem revokeFamily_avoids : (revokeFamily familyId now).Avoids TokenAction.Responds :=
  .bind (.perform id) fun _ => .perform id

theorem revokeAllForUser_avoids : (revokeAllForUser userId).Avoids TokenAction.Responds :=
  .bind (.perform id) fun _ => .bind (.perform id) fun _ => .perform id

theorem lookUpToken_avoids : (lookUpToken D presented).Avoids TokenAction.Responds :=
  .bind (.perform id) fun _ => .bind (.perform id) fun _ => .done _

theorem exchangeToken_avoids : (exchangeToken D stored now).Avoids TokenAction.Responds := by
  refine .bind (.bind (.attempt (.perform id)) fun r => ?_) fun count => ?_
  · cases r with
    | ok v    => exact .done 1
    | error e =>
      simp only
      split
      · exact .done 0
      · exact .fail e
  · dsimp only
    split
    · exact .bind (.fail _) fun _ => .bind (.perform id) fun _ => .bind (.perform id) fun _ =>
        .bind (.perform id) fun _ => .done _
    · exact .bind (.perform id) fun _ => .bind (.perform id) fun _ =>
        .bind (.perform id) fun _ => .done _

variable {i : TokenRequest}

-- The errors of statements are not about tokens.
theorem answered_error {log : TokenLog} {a : TokenAction} {e : TokenError} {s₀ s₁ : TokenStore}
    (h : Database.Traced (tokenProtocol D C R) i s₀ s₁ log) (ha : ⟨a, .error e⟩ ∈ log) :
    e ≠ .rejected reason := by
  have ⟨l₁, l₂, hl⟩ := List.append_of_mem ha
  have ⟨_, _, _, _, _, hr⟩ := h l₁ _ l₂ hl
  exact tokenAnswer_error hr

-- A transaction of which nothing has to be known afterwards.
theorem transacts {p : TokenTx α} (hp : p.Avoids TokenAction.Responds)
    (hd : ∀ log v s', p.After log (.done v) → (tokenSystem D).Evolves (tokenProtocol D C R).cond s s' →
      (tokenProtocol D C R).due (.commit i log) s') :
    Database.Transacts (tokenProtocol D C R) i p (fun _ _ => True) (fun _ _ => True) s where
  act  := fun ha _ _ => due_act (hp _ _ _ ha)
  due  := fun ha _ _ he => hd _ _ _ ha he
  done := fun _ _ _ _ _ _ _ _ => trivial
  fail := fun _ _ _ _ => trivial
  lost := fun _ _ _ => trivial

theorem issue_safe : (tokenProtocol D C R).Fine
    ((issueRefreshToken D userId).transaction (.issue userId) []) s := by
  refine (transacts issueRefreshToken_avoids fun log v s' ha _ => ⟨?_, fun _ h => by cases h⟩).safe
  have ⟨row, hw, hp⟩ := issueRefreshToken_done ha
  exact hw ▸ .issued hp

theorem logout_safe : (tokenProtocol D C R).Fine
    ((revokeAllForUser userId).transaction (.revokeAllForUser userId) []) s := by
  refine (transacts revokeAllForUser_avoids fun log v s' ha _ => ?_).safe
  have ⟨now, ids, hl⟩ := revokeAllForUser_done ha
  refine ⟨hl ▸ .loggedOut, fun _ h => ?_⟩
  cases h
  exact ⟨now, ids, hl⟩

theorem revocation_safe : (tokenProtocol D C R).Fine
    ((do
      let now ← Prog.perform .now
      revokeFamily familyId now : TokenTx Unit).transaction (.revokeFamily familyId) []) s := by
  refine (transacts (.bind (.perform id) fun _ => revokeFamily_avoids) fun log v s' ha _ => ?_).safe
  obtain ⟨l₁, l₂, now, rfl, h₁, h₂⟩ := Prog.After.bind_done ha
  have ⟨ids, hl⟩ := revokeFamily_done h₂
  refine ⟨?_, fun _ h => by cases h⟩
  rw [h₁.of_perform, hl]
  exact .revoked

theorem lookUp_safe {i : TokenRequest} (hi : ∀ userId, i ≠ .revokeAllForUser userId) :
    (tokenProtocol D C R).Safe ((lookUpToken D presented).transaction i [])
      (fun r s' => ∀ stored ∈ r.2, s'.Knows stored ∧ stored.tokenHash = D.hashToken presented)
      (fun e _ => e ≠ .rejected .reused) s := by
  refine Database.Transacts.safe {
    act  := fun ha _ _ => due_act (lookUpToken_avoids _ _ _ ha)
    due  := fun ha _ _ _ => ⟨lookUpToken_done ha ▸ .nothing, fun u h => (hi u h).elim⟩
    done := fun {log r s₁ s₂} ha ht _ _ _ _ he _ stored hs => ?_
    fail := fun {log e s₁} ha ht _ _ => ?_
    lost := fun {x e s₁} hx _ _ => ?_
  }
  · have hl := lookUpToken_done ha
    have ⟨x, s', hb, _, _, hr⟩ := ht [⟨.now, .ok r.1⟩]
      ⟨.findByHash (D.hashToken presented), .ok r.2⟩ [] hl
    have hr : Table.row? (·.tokenHash) s'.tokens (D.hashToken presented) = some stored := by
      have hr : some (.ok (Table.row? (·.tokenHash) s'.tokens (D.hashToken presented))) =
          some (.ok r.2 : Except TokenError (Option RefreshToken)) := by
        cases x <;> first | exact hr | cases hr
      exact (Except.ok.inj <| Option.some.inj hr).trans hs
    have hview : s₁.Grows s₂ := TokenStore.grows_view.trans <| grows_of_evolves he
    have hk : s'.Knows stored := ⟨stored, Table.mem_of_row? hr, .refl⟩
    exact ⟨hk.later <| (grows_of_evolves hb.after).trans hview, Table.key_of_row? hr⟩
  · have ⟨a, hm⟩ := lookUpToken_fail ha
    exact answered_error ht hm
  · cases x <;> cases hx
    exact fun h => by cases h

-- The outcome of a redemption, with whatever is known about it.
theorem rotate_safe (hR : Reports D C R) (hi : s.Chained) : (tokenProtocol D C R).Safe
    (rotateRefreshToken D presented) (fun _ _ => True)
    (fun e s' => e = .rejected .reused → R presented s') s := by
  have known {stored : RefreshToken} {s s' : TokenStore} (h : s.Knows stored)
      (he : (tokenSystem D).Evolves (tokenProtocol D C R).cond s s') : s'.Knows stored :=
    h.later (grows_of_evolves he)
  have unrelated (reason : RefreshFailure) (hn : reason ≠ .reused) (s : TokenStore) :
      (tokenProtocol D C R).Safe (.fail (.rejected reason) : TokenSession IssuedRefreshToken)
        (fun _ _ => True) (fun e s' => e = .rejected .reused → R presented s') s :=
    .fail fun _ _ _ h => by cases h; contradiction
  unfold rotateRefreshToken
  split
  case isTrue => exact unrelated .malformed (by decide) s
  case isFalse =>
    refine .bind hi <| (lookUp_safe (by simp)).mono (fun r s₁ _ hi₁ hk => ?_)
      (fun e s₁ _ _ hn h => (hn h).elim)
    obtain ⟨now, stored⟩ := r
    dsimp only
    split
    case h_1 stored hcl =>
      have ⟨hk, hh⟩ := hk stored rfl
      refine .bind hi₁ <| Database.Transacts.safe {
        act  := fun ha _ _ => due_act (revokeFamily_avoids _ _ _ ha)
        due  := fun {log v s₂} ha _ _ _ => ?_
        done := fun {log v s₂ s₃} ha _ hi₂ he₂ hc _ he₃ _ => ?_
        fail := fun {log e s₂} ha ht _ _ => ?_
        lost := fun {x e s₂} hx _ _ => ?_
      }
      · have ⟨ids, hl⟩ := revokeFamily_done ha
        exact ⟨hl ▸ .revoked, fun _ h => by cases h⟩
      · have ⟨ids, hl⟩ := revokeFamily_done ha
        subst hl
        have hr := hR.revoked hi₂ (known hk he₂) hh hc.1
        have hw : Writes s₂ [.revoke ids now] := .revoked
        exact .fail fun s₄ he₄ _ _ => hR.later hr (hw.keeps hi₂ rfl) (he₃.trans he₄)
      · have ⟨a, hm⟩ := revokeFamily_fail ha
        exact fun h => (answered_error ht hm h).elim
      · cases x <;> cases hx
        exact fun h => by cases h
    case h_2 stored _ _ reason hn hcl =>
      refine unrelated reason (fun hr => ?_) s₁
      cases stored with
      | none        => cases hr ▸ hcl
      | some stored => exact hn stored rfl hr
    case h_3 => exact unrelated .unknown (by decide) s₁
    case h_4 stored _ =>
      have ⟨hk, hh⟩ := hk stored rfl
      refine Database.Transacts.safe {
        act  := fun ha _ _ => due_act (exchangeToken_avoids _ _ _ ha)
        due  := fun {log v s₂} ha _ hi₂ he₂ => ?_
        done := fun _ _ _ _ _ _ _ _ => trivial
        fail := fun {log e s₂} ha ht hi₂ he₂ => ?_
        lost := fun {x e s₂} hx _ _ => ?_
      }
      · have ⟨row, hw, hp, hf, hu⟩ := exchangeToken_done ha
        have ⟨t, ht, ho⟩ := known hk he₂
        refine ⟨hw ▸ ?_, fun _ h => by cases h⟩
        exact .exchanged ht ho.id_eq (ho.familyId_eq.trans hf.symm) (ho.userId_eq.trans hu.symm) hp
      · rcases exchangeToken_fail ha with ⟨a, hm⟩ | ⟨_, hl⟩
        case inl => exact fun h => (answered_error ht hm h).elim
        case inr =>
          subst hl
          have ⟨x, s', hb, hc, _, hr⟩ := ht [] _ [] rfl
          have hn : tokenAdmits (.claim stored.id now) s' ≠ true := fun ha => by
            have hr : some (if tokenAdmits (.claim stored.id now) s' then .ok () else .error .noneMatched) =
                some (.error .noneMatched : Except TokenError Unit) := by
              cases x <;> first | exact hr | cases hr
            simp [ha] at hr
          exact fun _ => hR.later (hR.lost hb.inv (known hk hb.before) hh hc.1 hn) hb.inv hb.after
      · cases x <;> cases hx
        exact fun h => by cases h

theorem respond_safe (hR : Reports D C R) {outcome : Except TokenError Unit}
    (h : outcome = .error (.rejected .reused) → R presented s) (hi : s.Chained) :
    (tokenProtocol D C R).Fine (respondRotation presented outcome) s := by
  refine .of_call fun s₁ he hi₁ => ⟨fun hr => hR.later (h hr) hi he, fun _ x r s₂ _ => ?_⟩
  cases r with
  | ok v    => exact Protocol.Fine.done ()
  | error e => exact Protocol.Fine.fail e

theorem sound (hR : Reports D C R) (i : TokenRequest) : (tokenProtocol D C R).Sound (tokenRequest D i) := by
  intro s hi
  cases i with
  | issue userId            => exact .bind hi issue_safe fun _ _ _ _ _ => .done ()
  | revokeFamily familyId   => exact revocation_safe
  | revokeAllForUser userId => exact logout_safe
  | rotate presented        =>
    refine .bind (Q := fun outcome s' => ∀ e, outcome = .error e → e = .rejected .reused → R presented s')
      hi ?_ fun outcome s' _ hi' hq => ?_
    · refine .attempt <| (rotate_safe hR hi).mono (fun _ _ _ _ _ => ?_) (fun e s' _ _ he => ?_)
      · exact fun _ h => by cases h
      · exact fun _ h => by cases h; exact he
    · refine respond_safe hR (fun h => ?_) hi'
      cases outcome with
      | ok r    => cases h
      | error e => exact hq e rfl (by cases h; rfl)

end Mergepay.Auth
