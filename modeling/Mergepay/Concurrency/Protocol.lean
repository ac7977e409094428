import Mergepay.Concurrency.System

namespace Concurrency

variable {σ Act : Type} {Res : Act → Type} {ε χ η ι α β : Type}

-- How the shared state may have changed between two points of a run in which all actions meet `C`.
inductive System.Evolves (S : System σ Act Res ε χ η ι) (C : Act → σ → Prop) : σ → σ → Prop
  | refl : Evolves S C s s
  | act {s₁ s₂ s₃ : σ} {r : Except ε (Res a)} : Evolves S C s₁ s₂ → C a s₂ →
    S.exec a x s₂ = some (r, s₃) → Evolves S C s₁ s₃
  | env : Evolves S C s₁ s₂ → S.env e s₂ = some s₃ → Evolves S C s₁ s₃

theorem System.Evolves.trans {S : System σ Act Res ε χ η ι} (h₁ : S.Evolves C s₁ s₂)
    (h₂ : S.Evolves C s₂ s₃) : S.Evolves C s₁ s₃ := by
  induction h₂
  case refl          => exact h₁
  case act hc hx hi => exact .act (hi h₁) hc hx
  case env hx hi    => exact .env (hi h₁) hx

namespace System

variable (S : System σ Act Res ε χ η ι) (C : Act → σ → Prop) (I : σ → Prop)

-- Something was the case in the current state or in an earlier one.
def Past (F : σ → Prop) (s : σ) : Prop :=
  ∃ s₁, I s₁ ∧ F s₁ ∧ S.Evolves C s₁ s

-- An action has been answered with `v`.
def Answered (a : Act) (v : Res a) (s : σ) : Prop :=
  ∃ s₁ x s₂, I s₁ ∧ I s₂ ∧ S.exec a x s₁ = some (.ok v, s₂) ∧ S.Evolves C s₁ s ∧ S.Evolves C s₂ s

variable {S C I} {F G : σ → Prop} {s s' : σ}

theorem Past.later (h : S.Past C I F s) (he : S.Evolves C s s') : S.Past C I F s' :=
  have ⟨s₁, hi, hf, hs⟩ := h
  ⟨s₁, hi, hf, hs.trans he⟩

theorem Past.mono (h : S.Past C I F s) (hg : ∀ s, I s → F s → G s) : S.Past C I G s :=
  have ⟨s₁, hi, hf, hs⟩ := h
  ⟨s₁, hi, hg s₁ hi hf, hs⟩

-- The state in which an action was answered.
theorem Answered.before {a : Act} {v : Res a} (h : S.Answered C I a v s)
    (hf : ∀ x s₁ s₂, I s₁ → S.exec a x s₁ = some (.ok v, s₂) → F s₁) : S.Past C I F s :=
  have ⟨s₁, x, s₂, hi, _, hx, hs, _⟩ := h
  ⟨s₁, hi, hf x s₁ s₂ hi hx, hs⟩

-- The state that was left by an action.
theorem Answered.after {a : Act} {v : Res a} (h : S.Answered C I a v s)
    (hf : ∀ x s₁ s₂, I s₁ → S.exec a x s₁ = some (.ok v, s₂) → F s₂) : S.Past C I F s :=
  have ⟨s₁, x, s₂, hi, hi₂, hx, _, hs⟩ := h
  ⟨s₂, hi₂, hf x s₁ s₂ hi hx, hs⟩

end System

-- What the programs of a system have to respect: whenever a program performs an action, the action
-- is due. In return a program may rely on the shared state only having changed by actions that meet
-- `cond`, all of which preserve `inv`.
structure Protocol (S : System σ Act Res ε χ η ι) where
  cond : Act → σ → Prop
  inv  : σ → Prop
  due  : Act → σ → Prop
  exec {s s' : σ} {r : Except ε (Res a)} :
    inv s → cond a s → S.exec a x s = some (r, s') → inv s'
  env {s s' : σ} : inv s → S.env e s = some s' → inv s'

namespace Protocol

variable {S : System σ Act Res ε χ η ι} (P : Protocol S)

theorem inv_of_evolves {s s' : σ} (he : S.Evolves P.cond s s') (h : P.inv s) : P.inv s' := by
  induction he with
  | refl             => exact h
  | act _ hc hx hi => exact P.exec (hi h) hc hx
  | env _ hx hi    => exact P.env (hi h) hx

-- All actions of a program are due if it is started in a given state. It ends with `Q` if it returns
-- and with `E` if it raises. The quantifiers over `s₁` sit in front of every action, because other
-- processes may act in between. Thus the predicate is stable by construction.
def Safe : Prog Act Res ε α → (α → σ → Prop) → (ε → σ → Prop) → σ → Prop
  | .done a, Q, _, s   => ∀ s₁, S.Evolves P.cond s s₁ → P.inv s₁ → Q a s₁
  | .fail e, _, E, s   => ∀ s₁, S.Evolves P.cond s s₁ → P.inv s₁ → E e s₁
  | .call a k, Q, E, s => ∀ s₁, S.Evolves P.cond s s₁ → P.inv s₁ → P.due a s₁ ∧
      (P.cond a s₁ → ∀ x r s₂, S.exec a x s₁ = some (r, s₂) → Safe (k r) Q E s₂)

-- All actions of a program are due, whatever the outcome.
abbrev Fine (p : Prog Act Res ε α) (s : σ) : Prop :=
  P.Safe p (fun _ _ => True) (fun _ _ => True) s

-- All actions of a program are due wherever it is started.
def Sound (p : Prog Act Res ε α) : Prop :=
  ∀ s, P.inv s → P.Fine p s

variable {P} {Q Q' : α → σ → Prop} {E E' : ε → σ → Prop} {s s' : σ}

namespace Safe

theorem stable {p : Prog Act Res ε α} (h : P.Safe p Q E s) (hr : S.Evolves P.cond s s') :
    P.Safe p Q E s' := by
  cases p
  case done => exact fun _ hr' => h _ (hr.trans hr')
  case fail => exact fun _ hr' => h _ (hr.trans hr')
  case call => exact fun _ hr' => h _ (hr.trans hr')

theorem mono {p : Prog Act Res ε α} (h : P.Safe p Q E s)
    (hq : ∀ a s', S.Evolves P.cond s s' → P.inv s' → Q a s' → Q' a s')
    (he : ∀ e s', S.Evolves P.cond s s' → P.inv s' → E e s' → E' e s') : P.Safe p Q' E' s := by
  induction p generalizing s
  case done => exact fun s₁ hr hi => hq _ _ hr hi (h s₁ hr hi)
  case fail => exact fun s₁ hr hi => he _ _ hr hi (h s₁ hr hi)
  case call a k hk =>
    intro s₁ hr hi
    have ⟨hd, hs⟩ := h s₁ hr hi
    refine ⟨hd, fun hc x r s₂ hx => ?_⟩
    have hr₂ := hr.act hc hx
    refine hk r (hs hc x r s₂ hx) ?_ ?_
    · exact fun a s' hr' => hq a s' (hr₂.trans hr')
    · exact fun e s' hr' => he e s' (hr₂.trans hr')

theorem done {a : α} (h : ∀ s', S.Evolves P.cond s s' → P.inv s' → Q a s') :
    P.Safe (.done a) Q E s :=
  h

theorem fail {e : ε} (h : ∀ s', S.Evolves P.cond s s' → P.inv s' → E e s') :
    P.Safe (.fail e : Prog Act Res ε α) Q E s :=
  h

theorem perform {a : Act} {Q : Res a → σ → Prop}
    (hd : ∀ s', S.Evolves P.cond s s' → P.inv s' → P.due a s')
    (hq : ∀ v s', S.Evolves P.cond s s' → P.inv s' → S.Answered P.cond P.inv a v s' → Q v s')
    (he : ∀ e s', S.Evolves P.cond s s' → P.inv s' → E e s') : P.Safe (.perform a) Q E s := by
  intro s₁ hs hi
  refine ⟨hd s₁ hs hi, fun hc x r s₂ hx => ?_⟩
  have hs₂ := System.Evolves.refl.act hc hx
  cases r
  case error e => exact fun s₃ hs₃ => he e s₃ (hs.trans <| hs₂.trans hs₃)
  case ok v =>
    intro s₃ hs₃ hi₃
    refine hq v s₃ (hs.trans <| hs₂.trans hs₃) hi₃ ?_
    exact ⟨s₁, x, s₂, hi, P.exec hi hc hx, hx, hs₂.trans hs₃, hs₃⟩

theorem bind {p : Prog Act Res ε α} {f : α → Prog Act Res ε β} {Q : β → σ → Prop} (hi : P.inv s)
    (h : P.Safe p (fun a s' => P.Safe (f a) Q E s') E s) : P.Safe (p.bind f) Q E s := by
  induction p generalizing s
  case done => exact h s .refl hi
  case fail => exact h
  case call a k hk =>
    intro s₁ hr hi₁
    have ⟨hd, hs⟩ := h s₁ hr hi₁
    exact ⟨hd, fun hc x r s₂ hx => hk r (P.exec hi₁ hc hx) (hs hc x r s₂ hx)⟩

-- What a program ends with stays true.
theorem closed {p : Prog Act Res ε α} (h : P.Safe p Q E s) :
    P.Safe p (fun a s' => P.Safe (.done a : Prog Act Res ε α) Q E s')
      (fun e s' => P.Safe (.fail e : Prog Act Res ε α) Q E s') s := by
  induction p generalizing s
  case done => exact fun s₁ hr _ s₂ hr' => h s₂ (hr.trans hr')
  case fail => exact fun s₁ hr _ s₂ hr' => h s₂ (hr.trans hr')
  case call a k hk =>
    intro s₁ hr hi₁
    have ⟨hd, hs⟩ := h s₁ hr hi₁
    exact ⟨hd, fun hc x r s₂ hx => hk r (hs hc x r s₂ hx)⟩

-- The result of a program is only converted.
theorem map {p : Prog Act Res ε α} {g : α → β} {Q : β → σ → Prop}
    (h : P.Safe p (fun a => Q (g a)) E s) : P.Safe (p.bind fun a => .done (g a)) Q E s := by
  induction p generalizing s
  case done => exact h
  case fail => exact h
  case call a k hk =>
    intro s₁ hr hi₁
    have ⟨hd, hs⟩ := h s₁ hr hi₁
    exact ⟨hd, fun hc x r s₂ hx => hk r (hs hc x r s₂ hx)⟩

theorem attempt {p : Prog Act Res ε α} {Q : Except ε α → σ → Prop}
    (h : P.Safe p (fun a => Q (.ok a)) (fun e => Q (.error e)) s) : P.Safe p.attempt Q E s := by
  induction p generalizing s
  case done => exact h
  case fail => exact h
  case call a k hk =>
    intro s₁ hr hi₁
    have ⟨hd, hs⟩ := h s₁ hr hi₁
    exact ⟨hd, fun hc x r s₂ hx => hk r (hs hc x r s₂ hx)⟩

theorem fine {p : Prog Act Res ε α} (h : P.Safe p Q E s) : P.Fine p s :=
  h.mono (fun _ _ _ _ _ => trivial) (fun _ _ _ _ _ => trivial)

end Safe

namespace Fine

theorem done (a : α) : P.Fine (.done a) s :=
  fun _ _ _ => trivial

theorem fail (e : ε) : P.Fine (.fail e : Prog Act Res ε α) s :=
  fun _ _ _ => trivial

theorem attempt {p : Prog Act Res ε α} (h : P.Fine p s) : P.Fine p.attempt s :=
  Safe.attempt h

-- A program whose result is followed up.
theorem bind {p : Prog Act Res ε α} {f : α → Prog Act Res ε β} (hi : P.inv s)
    (h : P.Safe p Q (fun _ _ => True) s)
    (hf : ∀ a s', S.Evolves P.cond s s' → P.inv s' → Q a s' → P.Fine (f a) s') :
    P.Fine (p.bind f) s :=
  Safe.bind hi <| h.mono hf (fun _ _ _ _ _ => trivial)

-- An action whose answer is followed up.
theorem perform_bind {a : Act} {f : Res a → Prog Act Res ε β} (hi : P.inv s)
    (hd : ∀ s', S.Evolves P.cond s s' → P.inv s' → P.due a s')
    (hf : ∀ v s', S.Evolves P.cond s s' → P.inv s' → S.Answered P.cond P.inv a v s' →
      P.Fine (f v) s') : P.Fine ((Prog.perform a).bind f) s :=
  Safe.bind hi <| .perform hd hf (fun _ _ _ _ => trivial)

theorem swallow {p : Prog Act Res ε α} (hi : P.inv s) (h : P.Fine p s) : P.Fine p.swallow s :=
  bind hi h.attempt fun _ _ _ _ _ => done ()

-- The body of a loop may use what is known about the elements of the list, if that stays true.
theorem forEach {f : β → Prog Act Res ε Unit} {l : List β} {K : β → σ → Prop} (hi : P.inv s)
    (hk : ∀ b ∈ l, K b s) (hs : ∀ b s s', K b s → S.Evolves P.cond s s' → K b s')
    (h : ∀ b s, P.inv s → K b s → P.Fine (f b) s) : P.Fine (.forEach f l) s := by
  induction l generalizing s
  case nil => exact done ()
  case cons hd tl ht =>
    refine bind hi (h hd s hi <| hk hd List.mem_cons_self) fun _ s' he hi' _ => ht hi' ?_
    exact fun b hb => hs b s s' (hk b <| List.mem_cons_of_mem _ hb) he

end Fine

namespace Sound

theorem done (a : α) : P.Sound (.done a) :=
  fun _ _ => Fine.done a

theorem fail (e : ε) : P.Sound (.fail e : Prog Act Res ε α) :=
  fun _ _ => Fine.fail e

theorem perform {a : Act} (h : ∀ s, P.inv s → P.due a s) : P.Sound (.perform a) :=
  fun _ _ => Safe.perform (fun s' _ => h s') (fun _ _ _ _ _ => trivial) (fun _ _ _ _ => trivial)

theorem attempt {p : Prog Act Res ε α} (h : P.Sound p) : P.Sound p.attempt :=
  fun s hi => (h s hi).attempt

theorem bind {p : Prog Act Res ε α} {f : α → Prog Act Res ε β} (hp : P.Sound p)
    (hf : ∀ a, P.Sound (f a)) : P.Sound (p.bind f) :=
  fun s hi => Fine.bind hi (hp s hi) fun a s' _ hi' _ => hf a s' hi'

theorem swallow {p : Prog Act Res ε α} (h : P.Sound p) : P.Sound p.swallow :=
  fun s hi => (h s hi).swallow hi

theorem forEach {f : β → Prog Act Res ε Unit} {l : List β} (h : ∀ b, P.Sound (f b)) :
    P.Sound (.forEach f l) :=
  fun _ hi => Fine.forEach (K := fun _ _ => True) hi (fun _ _ => trivial) (fun _ _ _ _ _ => trivial)
    (fun b s hi _ => h b s hi)

-- Nothing has to be shown about the programs if the actions do not have to respect anything.
theorem of_due (h : ∀ a s, P.inv s → P.due a s) (p : Prog Act Res ε α) : P.Sound p := by
  induction p with
  | done a      => exact done a
  | fail e      => exact fail e
  | call a k hk =>
    intro s _ s₁ _ hi
    exact ⟨h a s₁ hi, fun hc x r s₂ hx => hk r s₂ (P.exec hi hc hx)⟩

end Sound

theorem Safe.ofExcept {x : Except ε α} (hq : ∀ a s', x = .ok a → S.Evolves P.cond s s' → P.inv s' → Q a s')
    (he : ∀ e s', x = .error e → S.Evolves P.cond s s' → P.inv s' → E e s') :
    P.Safe (.ofExcept x) Q E s := by
  cases x with
  | ok a    => exact .done fun s' => hq a s' rfl
  | error e => exact .fail fun s' => he e s' rfl

-- A computation whose result is followed up.
theorem Safe.ofExcept_bind {x : Except ε α} {f : α → Prog Act Res ε β} {Q : β → σ → Prop}
    (hf : ∀ a, x = .ok a → P.Safe (f a) Q (fun _ _ => True) s) :
    P.Safe ((Prog.ofExcept x).bind f) Q (fun _ _ => True) s := by
  cases x with
  | ok a    => exact hf a rfl
  | error e => exact .fail fun _ _ _ => trivial

-- An action whose answer is followed up.
theorem Safe.perform_bind {a : Act} {f : Res a → Prog Act Res ε β} {Q : β → σ → Prop} (hi : P.inv s)
    (hd : ∀ s', S.Evolves P.cond s s' → P.inv s' → P.due a s')
    (hf : ∀ v s', S.Evolves P.cond s s' → P.inv s' → S.Answered P.cond P.inv a v s' →
      P.Safe (f v) Q (fun _ _ => True) s') :
    P.Safe ((Prog.perform a).bind f) Q (fun _ _ => True) s :=
  .bind hi <| .perform hd hf (fun _ _ _ _ => trivial)

theorem Safe.call {a : Act} {k : Except ε (Res a) → Prog Act Res ε α} (h : P.Safe (.call a k) Q E s)
    (hi : P.inv s) : P.due a s ∧
      (P.cond a s → ∀ x r s', S.exec a x s = some (r, s') → P.Safe (k r) Q E s') :=
  h s .refl hi

-- A result that has been handed over stays true.
theorem Safe.result {a : α} (h : P.Safe (.done a : Prog Act Res ε α) Q E s) (hi : P.inv s) : Q a s :=
  h s .refl hi

theorem Safe.of_call {a : Act} {k : Except ε (Res a) → Prog Act Res ε α}
    (h : ∀ s₁, S.Evolves P.cond s s₁ → P.inv s₁ → P.due a s₁ ∧
      (P.cond a s₁ → ∀ x r s₂, S.exec a x s₁ = some (r, s₂) → P.Safe (k r) Q E s₂)) :
    P.Safe (.call a k) Q E s :=
  h

-- From here on only the rules are used. Otherwise `apply` and `refine` evaluate the programs.
attribute [irreducible] Safe

-- Everything a protocol promises about a configuration.
structure Holds (P : Protocol S) (c : Config σ Act Res ε) : Prop where
  inv  : P.inv c.shared
  safe : ∀ p ∈ c.procs, P.Fine p c.shared

namespace Holds

variable {c c₁ c₂ : Config σ Act Res ε} {l : Label χ η ι}

theorem init (h : P.inv s) : P.Holds ⟨s, []⟩ where
  inv  := h
  safe := by simp

-- The other processes remain safe after a step, because they expect the state to evolve.
theorem moved (h : P.Holds c) (hg : S.Evolves P.cond c.shared s) (hi : P.inv s) :
    P.Holds ⟨s, c.procs⟩ where
  inv  := hi
  safe := fun p hp => (h.safe p hp).stable hg

theorem set {p : Prog Act Res ε Unit} (h : P.Holds c) (hp : P.Fine p c.shared) :
    P.Holds ⟨c.shared, c.procs.set n p⟩ where
  inv  := h.inv
  safe := fun q hq => by
    rcases List.mem_or_eq_of_mem_set hq with hq | rfl
    case inl => exact h.safe q hq
    case inr => exact hp

theorem next (hs : ∀ i, P.Sound (S.entry i)) (h : P.Holds c₁) (m : c₁.Meets P.cond l)
    (hn : S.next l c₁ = some c₂) : P.Holds c₂ := by
  cases l <;> simp only [System.next, Option.some.injEq] at hn
  case spawn i =>
    subst hn
    refine ⟨h.inv, fun p hp => ?_⟩
    rcases List.mem_append.mp hp with hp | hp
    case inl => exact h.safe p hp
    case inr => exact List.mem_singleton.mp hp ▸ hs i c₁.shared h.inv
  case crash =>
    subst hn
    exact h.set <| .done ()
  case env e =>
    obtain ⟨s, hx, hn⟩ := Option.map_eq_some_iff.mp hn
    subst hn
    exact h.moved (.env .refl hx) (P.env h.inv hx)
  case act n x =>
    split at hn
    case h_2 => contradiction
    case h_1 a k hp =>
      obtain ⟨⟨r, s⟩, hx, hn⟩ := Option.map_eq_some_iff.mp hn
      subst hn
      have hc : P.cond a c₁.shared := m _ hp
      obtain ⟨_, hk⟩ := (h.safe _ <| List.mem_of_getElem? hp).call h.inv
      exact (h.moved (.act .refl hc hx) (P.exec h.inv hc hx)).set (hk hc x r s hx)

theorem run (hs : ∀ i, P.Sound (S.entry i)) (h : P.Holds c₁) (r : S.Run P.cond c₁ c₂) :
    P.Holds c₂ := by
  induction r
  case refl           => exact h
  case step m hn hi => exact hi.next hs m hn

-- What a process promises about its next action comes on top of what is required of a run.
theorem owes {C : Act → σ → Prop} (h : P.Holds c) (m : c.Meets C l) :
    c.Meets (fun a s => C a s ∧ P.due a s) l := by
  cases l with
  | spawn | crash | env => trivial
  | act n x =>
    intro p hp
    cases p with
    | done | fail => trivial
    | call a k    => exact ⟨m _ hp, ((h.safe _ <| List.mem_of_getElem? hp).call h.inv).1⟩

theorem meets {J : σ → Prop} (h : P.Holds c) (m : c.Meets P.cond l) (hj : J c.shared) :
    c.Meets (fun a s => P.cond a s ∧ P.due a s ∧ J s) l := by
  cases l
  case spawn | crash | env => trivial
  case act n x =>
    intro p hp
    cases p
    case done | fail => trivial
    case call a k    => exact ⟨m _ hp, ((h.safe _ <| List.mem_of_getElem? hp).call h.inv).1, hj⟩

-- A single step either leaves the state as it is, or is an event, or an action that is due.
theorem next_cases (h : P.Holds c₁) (m : c₁.Meets P.cond l) (hn : S.next l c₁ = some c₂) :
    c₂.shared = c₁.shared ∨
    (∃ e, S.env e c₁.shared = some c₂.shared) ∨
    (∃ a x r, P.cond a c₁.shared ∧ P.due a c₁.shared ∧
      S.exec a x c₁.shared = some (r, c₂.shared)) := by
  rcases System.next_shared m hn with hs | he | ⟨_, a, _, x, r, hp, hc, hx⟩
  · exact .inl hs
  · exact .inr <| .inl he
  · have ⟨hd, _⟩ := (h.safe _ <| List.mem_of_getElem? hp).call h.inv
    exact .inr <| .inr ⟨a, x, r, hc, hd, hx⟩

end Holds

-- What a protocol promises about the processes that are started from a certain point on. The processes
-- from before only have to meet its condition.
structure HoldsFrom (P : Protocol S) (m : Nat) (c : Config σ Act Res ε) : Prop where
  inv  : P.inv c.shared
  safe : ∀ n p, m ≤ n → c.procs[n]? = some p → P.Fine p c.shared

namespace HoldsFrom

variable {c c₁ c₂ : Config σ Act Res ε} {l : Label χ η ι} {m n : Nat}

theorem init (h : P.inv c.shared) : P.HoldsFrom c.procs.length c where
  inv  := h
  safe := fun n p hn hp => by
    have hlt := (List.getElem?_eq_some_iff.mp hp).1
    omega

theorem set {p : Prog Act Res ε Unit} (h : P.HoldsFrom m c) (hi : P.inv s)
    (hg : S.Evolves P.cond c.shared s) (hp : m ≤ n → P.Fine p s) :
    P.HoldsFrom m ⟨s, c.procs.set n p⟩ where
  inv  := hi
  safe := fun k q hk hq => by
    simp only [List.getElem?_set] at hq
    split at hq
    case isFalse => exact (h.safe k q hk hq).stable hg
    case isTrue he =>
      split at hq
      case isTrue  => exact Option.some.inj hq ▸ hp (he ▸ hk)
      case isFalse => cases hq

theorem next (hs : ∀ i, P.Sound (S.entry i)) (hm : m ≤ c₁.procs.length) (h : P.HoldsFrom m c₁)
    (hc : c₁.Meets P.cond l) (hn : S.next l c₁ = some c₂) :
    P.HoldsFrom m c₂ ∧ m ≤ c₂.procs.length := by
  cases l <;> simp only [System.next, Option.some.injEq] at hn
  case spawn i =>
    subst hn
    refine ⟨⟨h.inv, fun n p hn hp => ?_⟩, by simp only [List.length_append]; omega⟩
    rw [List.getElem?_append] at hp
    split at hp
    case isTrue => exact h.safe n p hn hp
    case isFalse =>
      have hp := List.mem_singleton.mp (List.mem_of_getElem? hp)
      exact hp ▸ hs i c₁.shared h.inv
  case crash n =>
    subst hn
    exact ⟨h.set h.inv .refl fun _ => .done (), by simpa using hm⟩
  case env e =>
    obtain ⟨s, hx, hn⟩ := Option.map_eq_some_iff.mp hn
    subst hn
    exact ⟨⟨P.env h.inv hx, fun n p hn hp => (h.safe n p hn hp).stable (.env .refl hx)⟩, hm⟩
  case act n x =>
    split at hn
    case h_2 => contradiction
    case h_1 a k hp =>
      obtain ⟨⟨r, s⟩, hx, hn⟩ := Option.map_eq_some_iff.mp hn
      subst hn
      have hc : P.cond a c₁.shared := hc _ hp
      refine ⟨h.set (P.exec h.inv hc hx) (.act .refl hc hx) fun hmn => ?_, by simpa using hm⟩
      exact ((h.safe n _ hmn hp).call h.inv).2 hc x r s hx

theorem run (hs : ∀ i, P.Sound (S.entry i)) (h : P.inv c₁.shared) (r : S.Run P.cond c₁ c₂) :
    P.HoldsFrom c₁.procs.length c₂ ∧ c₁.procs.length ≤ c₂.procs.length := by
  induction r with
  | refl            => exact ⟨init h, Nat.le_refl _⟩
  | step _ hm hn hi => exact hi.1.next hs hi.2 hm hn

end HoldsFrom

end Protocol
end Concurrency
