import Mergepay.Auth.Chains

namespace Mergepay.Auth

open Concurrency

-- The successful commit of an exchange.
def Redeems (D : TokenDeps) (id : String) (c c' : TokenConfig) : Prop :=
  ∃ n i log k now, c.procs[n]? = some (.call (.commit i log) k) ∧ .claim id now ∈ written log ∧
    (tokenSystem D).next (.act n .plain) c = some c'

-- Every token has at most one successor, and every family at most one token that can be redeemed.
structure TokenStore.Unforked (s : TokenStore) : Prop where
  successor : ∀ t₁ ∈ s.tokens, ∀ t₂ ∈ s.tokens, ∀ id ∈ t₁.predecessor, id ∈ t₂.predecessor → t₁ = t₂
  live      : ∀ t₁ ∈ s.tokens, ∀ t₂ ∈ s.tokens, t₁.live = true → t₂.live = true →
    t₁.familyId = t₂.familyId → t₁ = t₂

section

variable {D : TokenDeps} {s : TokenStore} {c c₁ c₂ c₃ : TokenConfig} {id : String}

abbrev chainProtocol (D : TokenDeps) : Protocol (tokenSystem D) :=
  tokenProtocol D (fun _ _ => True) (fun _ _ => True)

theorem chain_reports : Reports D (fun _ _ => True) (fun _ _ => True) where
  later   := fun _ _ _ => trivial
  revoked := fun _ _ _ _ => trivial
  lost    := fun _ _ _ _ _ => trivial

theorem chain_run (h : (chainProtocol D).Holds c₁) (r : (tokenSystem D).Run (fun _ _ => True) c₁ c₂) :
    (chainProtocol D).Holds c₂ :=
  h.run_due (fun _ _ _ hd => ⟨trivial, hd⟩) (sound chain_reports) r

theorem grows_of_next {l : Label TokenChoice Time TokenRequest}
    (hn : (tokenSystem D).next l c₁ = some c₂) : c₁.shared.Grows c₂.shared := by
  cases l <;> simp only [System.next, Option.some.injEq] at hn
  case spawn => exact hn ▸ .refl
  case crash => exact hn ▸ .refl
  case env e =>
    obtain ⟨s, hx, hn⟩ := Option.map_eq_some_iff.mp hn
    exact hn ▸ grows_of_evolves (B := fun _ _ => True) (.env .refl hx)
  case act n x =>
    split at hn
    case h_2 => contradiction
    case h_1 a k hp =>
      obtain ⟨⟨r, s⟩, hx, hn⟩ := Option.map_eq_some_iff.mp hn
      exact hn ▸ grows_of_evolves (B := fun _ _ => True) (.act .refl trivial hx)

theorem grows_of_run {C : TokenStep → TokenStore → Prop} (r : (tokenSystem D).Run C c₁ c₂) :
    c₁.shared.Grows c₂.shared := by
  induction r with
  | refl           => exact .refl
  | step _ _ hn hi => exact hi.trans (grows_of_next hn)

-- Before a redemption the token has no successor, and afterwards it has one.
theorem Redeems.cases (h : (chainProtocol D).Holds c) (hr : Redeems D id c c₁) :
    (∀ t ∈ c.shared.tokens, id ∉ t.predecessor) ∧ ∃ t ∈ c₁.shared.tokens, id ∈ t.predecessor := by
  obtain ⟨n, i, log, k, now, hp, hw, hn⟩ := hr
  have hd : tokenDue (fun _ _ => True) (.commit i log) c.shared :=
    ((h.safe _ <| List.mem_of_getElem? hp).call h.inv).1
  simp only [System.next, hp] at hn
  obtain ⟨⟨r, s⟩, hx, hn⟩ := Option.map_eq_some_iff.mp hn
  subst hn
  obtain ⟨ha, hs⟩ := Database.exec_commit hx
  have hs : s = tokenDatabase.view log c.shared := by
    rcases hs with ⟨_, hs⟩ | ⟨_, _, _, he⟩
    case inl => exact hs
    case inr => cases he
  rw [view_written] at hs
  have ha := admitted_written ha
  have hi : c.shared.Chained := h.inv
  have hwr := hd.1
  generalize written log = as at hw hwr ha hs
  cases hwr with
  | nothing   => cases hw
  | issued    => simp at hw
  | revoked   => simp at hw
  | loggedOut => simp at hw
  | @exchanged t now' row id' ht hid _ _ hpre =>
    obtain ⟨rfl, rfl⟩ : id = id' ∧ now = now' := by simpa using hw
    have hc : tokenAdmits (.claim id now) c.shared = true := ((Bool.and_eq_true ..).mp ha).1
    obtain ⟨t₁, ht₁, hid₁, hl⟩ := TokenStore.claimed hc
    refine ⟨fun u hu hm => ?_, row, ?_, hpre⟩
    · obtain ⟨t', ht', hi', hr'⟩ := hi.rotated u hu id hm
      obtain rfl := hi.eq_of_id ht' ht₁ (hi'.trans hid₁.symm)
      exact TokenStore.not_live_of_rotated hr' hl
    · rw [hs]
      exact List.mem_append_right _ (.head _)

-- In every run, chains of tokens do not fork, and no token is redeemed twice.
theorem chains_never_fork (h : s.Chained) (r : (tokenSystem D).Run (fun _ _ => True) ⟨s, []⟩ c) :
    c.shared.Unforked ∧ ∀ id c₁ c₂ c₃, Redeems D id c c₁ →
      (tokenSystem D).Run (fun _ _ => True) c₁ c₂ → ¬Redeems D id c₂ c₃ := by
  have hc : (chainProtocol D).Holds c := chain_run (.init h) r
  have hi : c.shared.Chained := hc.inv
  refine ⟨⟨hi.successor, hi.live⟩, fun id c₁ c₂ c₃ hr r' hr' => ?_⟩
  have hc₁ : (chainProtocol D).Holds c₁ := by
    have ⟨_, _, _, _, _, _, _, hn⟩ := hr
    refine chain_run hc (.step .refl ?_ hn)
    exact fun p _ => by cases p <;> trivial
  have ⟨t, ht, hm⟩ := (hr.cases hc).2
  have ⟨t', ht', ho⟩ := grows_of_run r' t ht
  exact (hr'.cases (chain_run hc₁ r')).1 t' ht' (ho.predecessor_eq ▸ hm)

end

-- A token of alice, and a family that is made from it.

def sampleTokenDeps : TokenDeps := {
  hashToken       := id
  refreshTokenTtl := 1000
}

def tokenText (c : Char) : String :=
  .ofList (List.replicate 43 c)

def sampleToken : RefreshToken := {
  id        := "first"
  tokenHash := tokenText 'a'
  familyId  := "family"
  userId    := "alice"
  expiresAt := 1000
}

def sampleTokenStore : TokenStore := { tokens := [sampleToken] }

theorem sampleTokenStore_chained : sampleTokenStore.Chained := by
  refine ⟨by decide, by decide, ?_, ?_, ?_, ?_⟩
  all_goals simp [sampleTokenStore, sampleToken]

def lookingUp (n : Nat) : List (Label TokenChoice Time TokenRequest) :=
  Label.acts n [.plain, .plain, .plain]

-- The exchange of a token for one with a given text, including the response.
def exchanging (n : Nat) (text : String) : List (Label TokenChoice Time TokenRequest) :=
  Label.acts n [.plain, .generated text, .generated text, .plain, .plain, .plain]

-- Two clients redeem the same token.
def redeemingTwice : List (Label TokenChoice Time TokenRequest) :=
  .flatten [
    [.spawn (.rotate (tokenText 'a')), .spawn (.rotate (tokenText 'a'))], lookingUp 0, lookingUp 1,
    exchanging 0 (tokenText 'b'), Label.acts 1 [.plain, .plain]
  ]

theorem chains_never_fork_sample : ∃ c : TokenConfig,
    c.shared.tokens.map (·.predecessor) = [none, some "first"] ∧ c.shared.Unforked := by
  have ⟨c, r, hc⟩ := System.exists_run_of_play (C := fun _ _ => True)
    (S := tokenSystem sampleTokenDeps) (c := ⟨sampleTokenStore, []⟩)
    (p := fun c => c.shared.tokens.map (·.predecessor) = [none, some "first"])
    redeemingTwice (by decide +kernel)
  exact ⟨c, of_decide_eq_true hc, (chains_never_fork sampleTokenStore_chained r).1⟩

end Mergepay.Auth
