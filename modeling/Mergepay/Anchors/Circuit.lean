import Mergepay.Data.OrderedMap
import Mergepay.Schema

namespace Mergepay.Anchors

inductive CircuitState
  | closed
  | open_
  | halfOpen
  deriving DecidableEq

structure ProviderCircuit where
  provider      : String
  state         : CircuitState := .closed
  failures      : Nat := 0
  openedAt      : Option Time := none
  lastFailureAt : Option Time := none
  deriving DecidableEq

structure CircuitOptions where
  failureThreshold : Nat := 5
  cooldownMs       : Time := 30000

structure AnchorCircuitBreaker extends CircuitOptions where
  circuits : OrderedMap String ProviderCircuit := []

inductive CircuitCall
  | recordFailure
  | recordSuccess
  | isOpen
  deriving DecidableEq

-- A call on the breaker, with the reading of the clock in it.
structure CircuitEvent where
  provider : String
  call     : CircuitCall
  now      : Time
  deriving DecidableEq

namespace AnchorCircuitBreaker

variable (b : AnchorCircuitBreaker) (provider : String)

def get : ProviderCircuit :=
  (b.circuits.get? provider).getD { provider }

-- A circuit that is looked up for the first time is stored.
def stored : AnchorCircuitBreaker :=
  if b.circuits.get? provider = none then { b with circuits := b.circuits.set provider { provider } } else b

def put (circuit : ProviderCircuit) : AnchorCircuitBreaker :=
  { b.stored provider with circuits := (b.stored provider).circuits.set provider circuit }

-- The answer tells whether the circuit has just opened.
def recordFailure (now : Time) : Bool × AnchorCircuitBreaker :=
  let circuit := b.get provider
  let updated := { circuit with failures := circuit.failures + 1, lastFailureAt := some now }
  if updated.failures ≥ b.failureThreshold ∧ circuit.state = .closed then
    (true, b.put provider { updated with state := .open_, openedAt := updated.lastFailureAt })
  else
    (false, b.put provider updated)

def recordSuccess : AnchorCircuitBreaker :=
  let circuit := b.get provider
  if circuit.state ≠ .closed then
    b.put provider { provider := circuit.provider }
  else
    b.stored provider

def isOpen (now : Time) : Bool × AnchorCircuitBreaker :=
  let circuit := b.get provider
  if circuit.state = .closed ∨ circuit.state = .halfOpen then
    (false, b.stored provider)
  else
    match circuit.openedAt with
    | none          => (false, b.stored provider)
    | some openedAt =>
      -- A reading of zero is falsy.
      if openedAt = 0 then
        (false, b.stored provider)
      else if now - openedAt ≥ b.cooldownMs then
        (false, b.put provider { circuit with state := .halfOpen })
      else
        (true, b.stored provider)

def perform (e : CircuitEvent) : Option Bool × AnchorCircuitBreaker :=
  match e.call with
  | .recordFailure => (b.recordFailure e.provider e.now).map some id
  | .recordSuccess => (none, b.recordSuccess e.provider)
  | .isOpen        => (b.isOpen e.provider e.now).map some id

-- What the operations do to the circuits.

variable {b provider}

@[simp]
theorem options_stored : (b.stored provider).toCircuitOptions = b.toCircuitOptions := by
  unfold stored
  split <;> rfl

@[simp]
theorem options_put (c : ProviderCircuit) : (b.put provider c).toCircuitOptions = b.toCircuitOptions :=
  options_stored

@[simp]
theorem get_stored {p : String} : (b.stored provider).get p = b.get p := by
  unfold stored
  split
  case isTrue h =>
    by_cases hp : provider = p
    case pos => simp [get, ← hp, h]
    case neg => simp [get, OrderedMap.get?_set_ne _ hp]
  case isFalse => rfl

@[simp]
theorem get_put_self (c : ProviderCircuit) : (b.put provider c).get provider = c := by
  simp [get, put]

theorem get_put_ne {p : String} (c : ProviderCircuit) (h : provider ≠ p) : (b.put provider c).get p = b.get p := by
  rw [← @get_stored b provider, put, get, OrderedMap.get?_set_ne _ h]
  rfl

theorem options_perform (e : CircuitEvent) : (b.perform e).2.toCircuitOptions = b.toCircuitOptions := by
  simp only [perform, recordFailure, recordSuccess, isOpen]
  repeat' split
  all_goals simp

-- An event leaves the circuits of other providers alone.
theorem get_perform_ne {p : String} (e : CircuitEvent) (h : e.provider ≠ p) : (b.perform e).2.get p = b.get p := by
  simp only [perform, recordFailure, recordSuccess, isOpen]
  repeat' split
  all_goals simp [get_put_ne _ h]

-- What an event does to its own circuit depends on nothing else.
theorem perform_congr {b' : AnchorCircuitBreaker} {e : CircuitEvent} (ho : b.toCircuitOptions = b'.toCircuitOptions)
    (hg : b.get e.provider = b'.get e.provider) :
    (b.perform e).1 = (b'.perform e).1 ∧ (b.perform e).2.get e.provider = (b'.perform e).2.get e.provider := by
  simp only [perform, recordFailure, recordSuccess, isOpen, hg, ho]
  repeat' split
  all_goals simp [hg]

variable {now : Time}

theorem recordFailure_opening (hs : (b.get provider).state = .closed)
    (hf : b.failureThreshold ≤ (b.get provider).failures + 1) :
    b.recordFailure provider now = (true, b.put provider { b.get provider with
      state := .open_, failures := (b.get provider).failures + 1, openedAt := some now, lastFailureAt := some now }) :=
  if_pos ⟨hf, hs⟩

theorem recordFailure_counting (h : (b.get provider).state = .closed →
    (b.get provider).failures + 1 < b.failureThreshold) :
    b.recordFailure provider now = (false, b.put provider { b.get provider with
      failures := (b.get provider).failures + 1, lastFailureAt := some now }) :=
  if_neg fun ⟨hf, hs⟩ => absurd hf (Nat.not_le.mpr (h hs))

theorem recordSuccess_closing (h : (b.get provider).state ≠ .closed) :
    b.recordSuccess provider = b.put provider { provider := (b.get provider).provider } :=
  if_pos h

theorem recordSuccess_closed (h : (b.get provider).state = .closed) :
    b.recordSuccess provider = b.stored provider :=
  if_neg (not_not.mpr h)

theorem isOpen_unopened (h : (b.get provider).state ≠ .open_) :
    b.isOpen provider now = (false, b.stored provider) := by
  refine if_pos ?_
  cases hs : (b.get provider).state with
  | closed   => exact .inl rfl
  | open_    => exact absurd hs h
  | halfOpen => exact .inr rfl

theorem isOpen_opened {t : Time} (hs : (b.get provider).state = .open_) (ho : (b.get provider).openedAt = some t)
    (ht : t ≠ 0) : b.isOpen provider now = if t + b.cooldownMs ≤ now then
      (false, b.put provider { b.get provider with state := .halfOpen }) else (true, b.stored provider) := by
  have hc : now - t ≥ b.cooldownMs ↔ t + b.cooldownMs ≤ now :=
    ⟨Int.add_le_of_le_sub_left, Int.le_sub_left_of_add_le⟩
  simp only [isOpen, hs, ho, ht, if_false, hc]
  rfl

end AnchorCircuitBreaker

end Mergepay.Anchors
