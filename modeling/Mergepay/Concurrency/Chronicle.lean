import Mathlib.Logic.Relation
import Mergepay.Concurrency.Transaction

namespace Concurrency

variable {σ γ Act : Type} {Res : Act → Type} {ε χ η ι α β : Type}

-- A record that is kept of what the processes of a system do, which are told apart by their entry points. Their
-- actions may be required to meet a condition which depends on the record. Only some of the entry points are in use.
-- Rivals are never at work at the same time: a process is only started once all of its rivals are over.
structure Chronicle (S : System σ Act Res ε χ η ι) (γ : Type) where
  record  : ι → Act → χ → σ → γ → γ
  permits : ι → Act → σ → γ → Prop
  starts  : ι → Prop
  rival   : ι → ι → Prop
  symm    : ∀ i j, rival i j → rival j i

-- A configuration, the entry points of its processes, and the record so far.
structure Scene (σ γ Act : Type) (Res : Act → Type) (ε ι : Type) where
  config  : Config σ Act Res ε
  entries : List ι := []
  record  : γ

namespace Scene

def state (s : Scene σ γ Act Res ε ι) : σ × γ :=
  (s.config.shared, s.record)

-- The process `n`, which was started from `i`, is at work.
def Works (s : Scene σ γ Act Res ε ι) (n : Nat) (i : ι) : Prop :=
  s.entries[n]? = some i ∧ ∃ p, s.config.procs[n]? = some p ∧ p.head ≠ none

end Scene

namespace Chronicle

variable {S : System σ Act Res ε χ η ι} (K : Chronicle S γ)

def Admits : Label χ η ι → Scene σ γ Act Res ε ι → Prop
  | .spawn i, s => K.starts i ∧ ∀ q ∈ s.entries.zip s.config.procs, K.rival i q.1 → q.2.head = none
  | .act n x, s => ∀ i ∈ s.entries[n]?, s.config.Meets (K.permits i · · s.record) (.act n x : Label χ η ι)
  | .crash _, _ | .env _, _ => True

instance [DecidablePred K.starts] [DecidableRel K.rival] [∀ i a s g, Decidable (K.permits i a s g)]
    (s : Scene σ γ Act Res ε ι) : (l : Label χ η ι) → Decidable (K.Admits l s)
  | .spawn _          => inferInstanceAs (Decidable (_ ∧ ∀ q ∈ _, _ → _ = none))
  | .act n x          =>
    inferInstanceAs (Decidable (∀ i ∈ s.entries[n]?, s.config.Meets _ (.act n x : Label χ η ι)))
  | .crash _ | .env _ => inferInstanceAs (Decidable True)

def enter : Label χ η ι → List ι → List ι
  | .spawn i, l                      => l ++ [i]
  | .act _ _, l | .crash _, l | .env _, l => l

def write : Label χ η ι → Scene σ γ Act Res ε ι → γ
  | .act n x, s => match s.entries[n]?, s.config.procs[n]? with
    | some i, some (.call a _) => K.record i a x s.config.shared s.record
    | _, _                     => s.record
  | .spawn _, s | .crash _, s | .env _, s => s.record

def next (l : Label χ η ι) (s : Scene σ γ Act Res ε ι) : Option (Scene σ γ Act Res ε ι) :=
  (S.next l s.config).map fun config => { config, entries := enter l s.entries, record := K.write l s }

inductive Run : Scene σ γ Act Res ε ι → Scene σ γ Act Res ε ι → Prop
  | refl : Run s s
  | step : Run s₁ s₂ → K.Admits l s₂ → K.next l s₂ = some s₃ → Run s₁ s₃

-- Follows a schedule for as long as its steps are admitted.
def play [DecidablePred K.starts] [DecidableRel K.rival] [∀ i a s g, Decidable (K.permits i a s g)] :
    List (Label χ η ι) → Scene σ γ Act Res ε ι → Option (Scene σ γ Act Res ε ι)
  | [], s       => some s
  | hd :: tl, s => if K.Admits hd s then (K.next hd s).bind (play tl) else none

variable {K} {s s₁ s₂ s₃ : Scene σ γ Act Res ε ι} {l : Label χ η ι}

theorem Run.head (m : K.Admits l s₁) (h : K.next l s₁ = some s₂) (r : K.Run s₂ s₃) : K.Run s₁ s₃ := by
  induction r with
  | refl            => exact .step .refl m h
  | step _ m' h' hi => exact .step hi m' h'

section

variable [DecidablePred K.starts] [DecidableRel K.rival] [∀ i a s g, Decidable (K.permits i a s g)]

theorem Run.of_play {ls : List (Label χ η ι)} (h : K.play ls s₁ = some s₂) : K.Run s₁ s₂ := by
  induction ls generalizing s₁ <;> simp only [play] at h
  case nil => exact Option.some.inj h ▸ .refl
  case cons hd tl hi =>
    split at h
    case isFalse => contradiction
    case isTrue m =>
      have ⟨_, hn, ht⟩ := Option.bind_eq_some_iff.mp h
      exact .head m hn (hi ht)

theorem exists_run_of_play {p : Scene σ γ Act Res ε ι → Bool} (ls : List (Label χ η ι))
    (h : (K.play ls s).any p = true) : ∃ s', K.Run s s' ∧ p s' = true := by
  have ⟨s', hs, hp⟩ := (Option.any_eq_true ..).mp h
  exact ⟨s', .of_play hs, hp⟩

end

-- What the processes may rely on, and what they guarantee in return. Both depend on which process it is.
structure Contract (K : Chronicle S γ) where
  inv  : σ × γ → Prop
  rely : ι → σ × γ → σ × γ → Prop
  guar : ι → σ × γ → σ × γ → Prop
  -- What is guaranteed by one of two processes that are at work at the same time.
  fits {i j : ι} {s s' : σ × γ} : ¬K.rival i j → guar i s s' → rely j s s'
  env {e : η} {s : σ × γ} {t : σ} : inv s → S.env e s.1 = some t →
    inv (t, s.2) ∧ ∀ i, rely i s (t, s.2)

namespace Contract

variable (T : Contract K) (i : ι)

-- A program of the given process ends with `Q` if it returns and with `E` if it raises. It keeps the
-- invariant and meets its guarantees, provided that the steps of the others meet what it relies on.
def Secure : Prog Act Res ε α → (α → σ × γ → Prop) → (ε → σ × γ → Prop) → σ × γ → Prop
  | .done a, Q, _, s   => Q a s
  | .fail e, _, E, s   => E e s
  | .call a k, Q, E, s => ∀ s₁, Relation.ReflTransGen (T.rely i) s s₁ → T.inv s₁ →
    K.permits i a s₁.1 s₁.2 → ∀ x r t, S.exec a x s₁.1 = some (r, t) →
      T.inv (t, K.record i a x s₁.1 s₁.2) ∧ T.guar i s₁ (t, K.record i a x s₁.1 s₁.2) ∧
      Secure (k r) Q E (t, K.record i a x s₁.1 s₁.2)

-- Nothing is claimed about the outcome.
def Fine (p : Prog Act Res ε α) (s : σ × γ) : Prop :=
  T.Secure i p (fun _ _ => True) (fun _ _ => True) s

-- An assertion that is not invalidated by others.
def Stable (F : σ × γ → Prop) : Prop :=
  ∀ s s', T.rely i s s' → F s → F s'

variable {T i} {Q Q' : α → σ × γ → Prop} {E E' : ε → σ × γ → Prop} {s s' : σ × γ}

theorem Stable.later {F : σ × γ → Prop} (h : T.Stable i F) (hr : Relation.ReflTransGen (T.rely i) s s')
    (hf : F s) : F s' := by
  induction hr with
  | refl         => exact hf
  | tail _ hr hi => exact h _ _ hr hi

theorem Stable.and {F G : σ × γ → Prop} (hf : T.Stable i F) (hg : T.Stable i G) :
    T.Stable i fun s => F s ∧ G s :=
  fun s s' hr h => ⟨hf s s' hr h.1, hg s s' hr h.2⟩

namespace Secure

theorem mono {p : Prog Act Res ε α} (h : T.Secure i p Q E s) (hq : ∀ a s, Q a s → Q' a s)
    (he : ∀ e s, E e s → E' e s) : T.Secure i p Q' E' s := by
  induction p generalizing s with
  | done a => exact hq a s h
  | fail e => exact he e s h
  | call a k hk =>
    intro s₁ hr hi hc x r t hx
    have ⟨hi, hg, h⟩ := h s₁ hr hi hc x r t hx
    exact ⟨hi, hg, hk r h⟩

theorem fine {p : Prog Act Res ε α} (h : T.Secure i p Q E s) : T.Fine i p s :=
  h.mono (fun _ _ _ => trivial) fun _ _ _ => trivial

theorem bind {p : Prog Act Res ε α} {f : α → Prog Act Res ε β} {Q : β → σ × γ → Prop}
    (h : T.Secure i p (fun a => T.Secure i (f a) Q E) E s) : T.Secure i (p.bind f) Q E s := by
  induction p generalizing s with
  | done a => exact h
  | fail e => exact h
  | call a k hk =>
    intro s₁ hr hi hc x r t hx
    have ⟨hi, hg, h⟩ := h s₁ hr hi hc x r t hx
    exact ⟨hi, hg, hk r h⟩

theorem attempt {p : Prog Act Res ε α} {Q : Except ε α → σ × γ → Prop}
    (h : T.Secure i p (fun a => Q (.ok a)) (fun e => Q (.error e)) s) :
    T.Secure i p.attempt Q E s := by
  induction p generalizing s with
  | done a => exact h
  | fail e => exact h
  | call a k hk =>
    intro s₁ hr hi hc x r t hx
    have ⟨hi, hg, h⟩ := h s₁ hr hi hc x r t hx
    exact ⟨hi, hg, hk r h⟩

theorem swallow {p : Prog Act Res ε α} {Q : Unit → σ × γ → Prop}
    (h : T.Secure i p (fun _ => Q ()) (fun _ => Q ()) s) : T.Secure i p.swallow Q E s :=
  bind (attempt h)

theorem perform {a : Act} {F : σ × γ → Prop} {Q : Res a → σ × γ → Prop} (hs : T.Stable i F) (hf : F s)
    (h : ∀ s₁, F s₁ → T.inv s₁ → K.permits i a s₁.1 s₁.2 → ∀ x r t, S.exec a x s₁.1 = some (r, t) →
      T.inv (t, K.record i a x s₁.1 s₁.2) ∧ T.guar i s₁ (t, K.record i a x s₁.1 s₁.2) ∧
      (∀ v, r = .ok v → Q v (t, K.record i a x s₁.1 s₁.2)) ∧
      ∀ e, r = .error e → E e (t, K.record i a x s₁.1 s₁.2)) :
    T.Secure i (.perform a) Q E s := by
  intro s₁ hr hi hc x r t hx
  have ⟨hi, hg, hq, he⟩ := h s₁ (hs.later hr hf) hi hc x r t hx
  refine ⟨hi, hg, ?_⟩
  cases r with
  | ok v    => exact hq v rfl
  | error e => exact he e rfl

-- What is invalidated by nobody still holds in the end.
theorem frame {p : Prog Act Res ε α} {F : σ × γ → Prop} (hr : T.Stable i F)
    (hg : ∀ s s', T.guar i s s' → F s → F s') (h : T.Secure i p Q E s) (hf : F s) :
    T.Secure i p (fun a s => Q a s ∧ F s) (fun e s => E e s ∧ F s) s := by
  induction p generalizing s with
  | done a => exact ⟨h, hf⟩
  | fail e => exact ⟨h, hf⟩
  | call a k hk =>
    intro s₁ hs hi hc x r t hx
    have ⟨hi, hg', h⟩ := h s₁ hs hi hc x r t hx
    exact ⟨hi, hg', hk r h <| hg _ _ hg' <| hr.later hs hf⟩

-- If an assertion is kept by every iteration, it is kept by the loop.
theorem forEach_of_mem {f : β → Prog Act Res ε Unit} {F : σ × γ → Prop} {bs : List β}
    (h : ∀ b ∈ bs, ∀ s, F s → T.Secure i (f b) (fun _ => F) E s) (hf : F s) :
    T.Secure i (Prog.forEach f bs) (fun _ => F) E s := by
  induction bs generalizing s with
  | nil          => exact hf
  | cons b bs hi =>
    refine bind <| (h b List.mem_cons_self s hf).mono (fun _ _ hf => ?_) fun _ _ he => he
    exact hi (fun b hb => h b (List.mem_cons_of_mem _ hb)) hf

theorem forEach {f : β → Prog Act Res ε Unit} {F : σ × γ → Prop}
    (h : ∀ b s, F s → T.Secure i (f b) (fun _ => F) E s) (bs : List β) (hf : F s) :
    T.Secure i (Prog.forEach f bs) (fun _ => F) E s :=
  forEach_of_mem (fun b _ => h b) hf

-- The actions that are not avoided by a program are harmless.
theorem of_avoids {B : Act → Prop} (ha : ∀ a, ¬B a → ∀ s, T.inv s → K.permits i a s.1 s.2 → ∀ x r t,
      S.exec a x s.1 = some (r, t) →
      T.inv (t, K.record i a x s.1 s.2) ∧ T.guar i s (t, K.record i a x s.1 s.2))
    {p : Prog Act Res ε α} (h : p.Avoids B) (s : σ × γ) : T.Fine i p s := by
  induction p generalizing s with
  | done a => trivial
  | fail e => trivial
  | call a k hk =>
    intro s₁ hr hi hc x r t hx
    have ⟨hi, hg⟩ := ha a h.head s₁ hi hc x r t hx
    exact ⟨hi, hg, hk r (h.rest r) _⟩

-- What is kept by every action that is not avoided is kept by a program.
theorem keeps {B : Act → Prop} {F : σ × γ → Prop}
    (ha : ∀ a, ¬B a → ∀ s, F s → T.Secure i (.perform a) (fun _ => F) (fun _ => F) s)
    {p : Prog Act Res ε α} (h : p.Avoids B) (hf : F s) : T.Secure i p (fun _ => F) (fun _ => F) s := by
  induction p generalizing s with
  | done a => exact hf
  | fail e => exact hf
  | call a k hk =>
    intro s₁ hr hi hc x r t hx
    have ⟨hi, hg, hf⟩ := ha a h.head s hf s₁ hr hi hc x r t hx
    refine ⟨hi, hg, hk r (h.rest r) ?_⟩
    cases r with
    | ok v    => exact hf
    | error e => exact hf

end Secure

-- The steps of the others do not matter to a process about whose outcome nothing is claimed.
theorem Fine.later {p : Prog Act Res ε α} (h : T.Fine i p s) (hr : Relation.ReflTransGen (T.rely i) s s') :
    T.Fine i p s' := by
  cases p with
  | done a   => trivial
  | fail e   => trivial
  | call a k => exact fun s₁ hr₁ => h s₁ (hr.trans hr₁)

theorem Fine.of_over {p : Prog Act Res ε α} (h : p.head = none) : T.Fine i p s := by
  cases p with
  | done a   => trivial
  | fail e   => trivial
  | call a k => cases h

variable (T) in
-- The processes are secure, and no two of them that are at work are rivals.
structure Kept (s : Scene σ γ Act Res ε ι) : Prop where
  inv    : T.inv s.state
  length : s.entries.length = s.config.procs.length
  starts : ∀ i ∈ s.entries, K.starts i
  fine   : ∀ (n : Nat) (i : ι) (p : Prog Act Res ε Unit), s.entries[n]? = some i → s.config.procs[n]? = some p →
    T.Fine i p s.state
  apart  : ∀ n m i j, n ≠ m → s.Works n i → s.Works m j → ¬K.rival i j

section Lists

variable {l : List α} {a b : α} {m : Nat}

theorem of_getElem?_concat (h : (l ++ [a])[n]? = some b) : l[n]? = some b ∨ n = l.length ∧ b = a := by
  rw [List.getElem?_append] at h
  split at h
  case isTrue => exact .inl h
  case isFalse hn =>
    have ⟨hl, h⟩ := List.getElem?_eq_some_iff.mp h
    rw [List.length_singleton] at hl
    refine .inr ⟨by omega, ?_⟩
    rw [← h, List.getElem_singleton]

theorem of_getElem?_set (h : (l.set n a)[m]? = some b) : m = n ∧ b = a ∨ m ≠ n ∧ l[m]? = some b := by
  by_cases he : m = n
  case neg => exact .inr ⟨he, List.getElem?_set_ne (Ne.symm he) ▸ h⟩
  case pos =>
    subst he
    have ⟨hl, h⟩ := List.getElem?_eq_some_iff.mp h
    exact .inl ⟨rfl, by rw [← h, List.getElem_set_self]⟩

end Lists

theorem Kept.init (h : T.inv s) :
    T.Kept (⟨⟨s.1, []⟩, [], s.2⟩ : Scene σ γ Act Res ε ι) where
  inv    := h
  length := rfl
  starts := by simp
  fine   := by simp
  apart  := by simp [Scene.Works]

variable {s s₁ s₂ : Scene σ γ Act Res ε ι} {l : Label χ η ι}

-- One of the processes has taken a step, or has been replaced by a program that is over.
theorem Kept.set {c : Config σ Act Res ε} {g : γ} {p : Prog Act Res ε Unit} {i : ι} {n : Nat} {t : σ}
    (h : T.Kept ⟨c, es, g⟩) (hi : es[n]? = some i) (ht : T.inv (t, g'))
    (hp : T.Fine i p (t, g')) (hw : p.head ≠ none → (⟨c, es, g⟩ : Scene σ γ Act Res ε ι).Works n i)
    (hr : ∀ m j, m ≠ n → (⟨c, es, g⟩ : Scene σ γ Act Res ε ι).Works m j →
      Relation.ReflTransGen (T.rely j) (c.shared, g) (t, g')) :
    T.Kept ⟨⟨t, c.procs.set n p⟩, es, g'⟩ where
  inv := ht
  length := by simpa using h.length
  starts := h.starts
  fine m j q hj hq := by
    rcases of_getElem?_set hq with ⟨rfl, rfl⟩ | ⟨hm, hq⟩
    case inl =>
      cases hi.symm.trans hj
      exact hp
    case inr =>
      by_cases hq' : q.head = none
      case pos => exact .of_over hq'
      case neg => exact (h.fine m j q hj hq).later <| hr m j hm ⟨hj, q, hq, hq'⟩
  apart m₁ m₂ j₁ j₂ hm h₁ h₂ := by
    have works {m j} (hw' : (⟨⟨t, c.procs.set n p⟩, es, g'⟩ : Scene σ γ Act Res ε ι).Works m j) :
        (⟨c, es, g⟩ : Scene σ γ Act Res ε ι).Works m j := by
      obtain ⟨hj, q, hq, hq'⟩ := hw'
      rcases of_getElem?_set hq with ⟨rfl, rfl⟩ | ⟨_, hq⟩
      case inl =>
        cases hi.symm.trans hj
        exact hw hq'
      case inr => exact ⟨hj, q, hq, hq'⟩
    exact h.apart m₁ m₂ j₁ j₂ hm (works h₁) (works h₂)

-- A process that has just been started, at a time when none of its rivals was at work.
theorem Kept.concat {c : Config σ Act Res ε} (h : T.Kept ⟨c, es, g⟩) (hk : K.starts i) (hi : T.Fine i p (c.shared, g))
    (hr : ∀ q ∈ es.zip c.procs, K.rival i q.1 → q.2.head = none) :
    T.Kept ⟨{ c with procs := c.procs ++ [p] }, es ++ [i], g⟩ := by
  have hl : es.length = c.procs.length := h.length
  -- Either it is the new process, or it has been there before.
  have known {m : Nat} {j} {q : Prog Act Res ε Unit} (hj : (es ++ [i])[m]? = some j)
      (hq : (c.procs ++ [p])[m]? = some q) :
      es[m]? = some j ∧ c.procs[m]? = some q ∨ m = c.procs.length ∧ j = i ∧ q = p := by
    rcases of_getElem?_concat hj with hj | ⟨hm, rfl⟩ <;>
      rcases of_getElem?_concat hq with hq | ⟨hm', rfl⟩
    · exact .inl ⟨hj, hq⟩
    · have hlt := (List.getElem?_eq_some_iff.mp hj).1
      omega
    · have hlt := (List.getElem?_eq_some_iff.mp hq).1
      omega
    · exact .inr ⟨hm', rfl, rfl⟩
  have apart {m : Nat} {j} {q : Prog Act Res ε Unit} (hj : es[m]? = some j) (hq : c.procs[m]? = some q)
      (hw : q.head ≠ none) : ¬K.rival i j := by
    intro hij
    refine hw <| hr (j, q) ?_ hij
    exact List.mem_iff_getElem?.mpr ⟨m, List.getElem?_zip_eq_some.mpr ⟨hj, hq⟩⟩
  have starts : ∀ j ∈ es ++ [i], K.starts j := fun j hj => by
    rcases List.mem_append.mp hj with hj | hj
    case inl => exact h.starts j hj
    case inr => exact List.mem_singleton.mp hj ▸ hk
  refine ⟨h.inv, by simp [hl], starts, fun m j q hj hq => ?_, fun m₁ m₂ j₁ j₂ hm h₁ h₂ => ?_⟩
  case refine_1 =>
    rcases known hj hq with ⟨hj, hq⟩ | ⟨rfl, rfl, rfl⟩
    case inl => exact h.fine m j q hj hq
    case inr => exact hi
  case refine_2 =>
    obtain ⟨hj₁, q₁, hq₁, hw₁⟩ := h₁
    obtain ⟨hj₂, q₂, hq₂, hw₂⟩ := h₂
    rcases known hj₁ hq₁ with ⟨hj₁', hq₁'⟩ | ⟨rfl, rfl, rfl⟩ <;>
      rcases known hj₂ hq₂ with ⟨hj₂', hq₂'⟩ | ⟨rfl, rfl, rfl⟩
    · exact h.apart m₁ m₂ j₁ j₂ hm ⟨hj₁', q₁, hq₁', hw₁⟩ ⟨hj₂', q₂, hq₂', hw₂⟩
    · exact fun hij => apart hj₁' hq₁' hw₁ <| K.symm _ _ hij
    · exact apart hj₂' hq₂' hw₂
    · exact (hm rfl).elim

-- A process performs an action. It has met its guarantees, and whatever it does next is secure.
theorem Kept.act {c : Config σ Act Res ε} {a : Act} {k : Except ε (Res a) → Prog Act Res ε Unit}
    {r : Except ε (Res a)} {t : σ} (h : T.Kept ⟨c, es, g⟩) (hi : es[n]? = some i) (hp : c.procs[n]? = some (.call a k))
    (hm : K.permits i a c.shared g) (hx : S.exec a x c.shared = some (r, t)) :
    T.guar i (c.shared, g) (t, K.record i a x c.shared g) ∧
      T.Kept ⟨⟨t, c.procs.set n (k r)⟩, es, K.record i a x c.shared g⟩ := by
  have hw : (⟨c, es, g⟩ : Scene σ γ Act Res ε ι).Works n i := ⟨hi, _, hp, by simp [Prog.head]⟩
  have ⟨hinv, hg, hk⟩ := h.fine n i _ hi hp _ .refl h.inv hm x r t hx
  refine ⟨hg, h.set hi hinv hk (fun _ => hw) fun m j hm hj => .single ?_⟩
  exact T.fits (h.apart _ _ _ _ hm.symm hw hj) hg

-- A step is an action of one of the processes, or it is not.
theorem Kept.step (hs : ∀ i s, K.starts i → T.inv s → T.Fine i (S.entry i) s) (h : T.Kept s₁)
    (m : K.Admits l s₁) (hn : K.next l s₁ = some s₂) : T.Kept s₂ ∧
      (s₂.state = s₁.state ∨ (∃ i, K.starts i ∧ T.guar i s₁.state s₂.state) ∨
        ∃ e, S.env e s₁.config.shared = some s₂.config.shared ∧ s₂.record = s₁.record) := by
  obtain ⟨c, es, g⟩ := s₁
  obtain ⟨c', hx, hn⟩ := Option.map_eq_some_iff.mp hn
  subst hn
  cases l <;> simp only [System.next, Option.some.injEq] at hx
  case spawn i =>
    subst hx
    exact ⟨h.concat m.1 (hs i _ m.1 h.inv) m.2, .inl rfl⟩
  case crash n =>
    subst hx
    refine ⟨?_, .inl rfl⟩
    by_cases hn : n < c.procs.length
    case neg =>
      simp only [List.set_eq_of_length_le (Nat.le_of_not_lt hn)]
      exact h
    case pos =>
      have hl : es.length = c.procs.length := h.length
      have hi : es[n]? = some es[n] := List.getElem?_eq_getElem _
      exact h.set hi h.inv (.of_over rfl) (absurd rfl) fun _ _ _ _ => .refl
  case env e =>
    obtain ⟨t, he, hx⟩ := Option.map_eq_some_iff.mp hx
    subst hx
    obtain ⟨hi, hr⟩ := T.env h.inv he
    refine ⟨⟨hi, h.length, h.starts, fun n j p hj hp => ?_, h.apart⟩, .inr <| .inr ⟨e, he, rfl⟩⟩
    exact (h.fine n j p hj hp).later (.single (hr j))
  case act n x =>
    split at hx
    case h_2 => contradiction
    case h_1 a k hp =>
      obtain ⟨⟨r, t⟩, ha, hx⟩ := Option.map_eq_some_iff.mp hx
      subst hx
      have hl : es.length = c.procs.length := h.length
      have hn := (List.getElem?_eq_some_iff.mp hp).1
      have hi : es[n]? = some es[n] := List.getElem?_eq_getElem _
      have he : K.write (.act n x) (⟨c, es, g⟩ : Scene σ γ Act Res ε ι) = K.record es[n] a x c.shared g := by
        simp only [write, hi, hp]
      rw [he]
      obtain ⟨hg, hk⟩ := h.act hi hp (m _ hi _ hp) ha
      exact ⟨hk, .inr <| .inl ⟨es[n], h.starts _ (List.getElem_mem _), hg⟩⟩

theorem Kept.run (hs : ∀ i s, K.starts i → T.inv s → T.Fine i (S.entry i) s) (h : T.Kept s₁) (r : K.Run s₁ s₂) :
    T.Kept s₂ := by
  induction r with
  | refl            => exact h
  | step _ m hn hi => exact (hi.step hs m hn).1

end Contract

end Chronicle
end Concurrency
