import Mathlib.Data.List.Basic
import Mathlib.Tactic.Linarith

-- The decoding of bytes as UTF-8 that replaces whatever is malformed
namespace Text.Utf8

def replacement : Char := '\uFFFD'

-- A character of which only the first bytes have been read: how many bytes are missing, the bits so
-- far, and the bytes which may come next.
structure Pending where
  missing : Nat
  bits    : Nat
  lower   : Nat := 0x80
  upper   : Nat := 0xBF

-- The first byte of a character.
def lead (b : Nat) : List Char × Option Pending :=
  if b < 0x80 then ([.ofNat b], none)
  else if 0xC2 ≤ b ∧ b ≤ 0xDF then ([], some { missing := 1, bits := b - 0xC0 })
  else if 0xE0 ≤ b ∧ b ≤ 0xEF then ([], some {
    missing := 2
    bits    := b - 0xE0
    lower   := if b = 0xE0 then 0xA0 else 0x80
    upper   := if b = 0xED then 0x9F else 0xBF
  })
  else if 0xF0 ≤ b ∧ b ≤ 0xF4 then ([], some {
    missing := 3
    bits    := b - 0xF0
    lower   := if b = 0xF0 then 0x90 else 0x80
    upper   := if b = 0xF4 then 0x8F else 0xBF
  })
  else ([replacement], none)

-- A byte that does not continue the pending character is read once more as a first byte.
def step : Option Pending → Nat → List Char × Option Pending
  | none, b   => lead b
  | some p, b =>
    if p.lower ≤ b ∧ b ≤ p.upper then
      let bits := p.bits * 64 + (b - 0x80)
      if p.missing = 1
      then ([.ofNat bits], none)
      else ([], some { missing := p.missing - 1, bits })
    else
      (replacement :: (lead b).1, (lead b).2)

def decodeFrom : Option Pending → List UInt8 → List Char
  | none, []   => []
  | some _, [] => [replacement]
  | s, b :: tl => (step s b.toNat).1 ++ decodeFrom (step s b.toNat).2 tl

def decode (l : List UInt8) : List Char :=
  decodeFrom none l

namespace Pending

-- The range of the characters that may result, without its upper bound.

def least (p : Pending) : Nat :=
  (p.bits * 64 + (p.lower - 0x80)) * 64 ^ (p.missing - 1)

def bound (p : Pending) : Nat :=
  (p.bits * 64 + (p.upper - 0x80) + 1) * 64 ^ (p.missing - 1)

structure Valid (p : Pending) : Prop where
  missing   : p.missing = 1 ∨ p.missing = 2 ∨ p.missing = 3
  lower     : 0x80 ≤ p.lower
  upper     : p.upper ≤ 0xBF
  nonAscii  : 0x80 ≤ p.least
  inRange   : p.bound ≤ 0x110000
  surrogate : p.bound ≤ 0xD800 ∨ 0xDFFF < p.least

end Pending

theorem toNat_ofNat (h : n.isValidChar) : (Char.ofNat n).toNat = n := by
  rw [Char.ofNat, dif_pos h]
  rfl

theorem lead_cases (b : Nat) :
    (b < 0x80 ∧ lead b = ([.ofNat b], none)) ∨
    (∃ p, lead b = ([], some p) ∧ p.Valid) ∨
    lead b = ([replacement], none) := by
  unfold lead
  split
  case isTrue h => exact .inl ⟨h, rfl⟩
  case isFalse =>
    split
    case isTrue h =>
      refine .inr <| .inl ⟨_, rfl, ?_⟩
      constructor <;> simp [Pending.least, Pending.bound] <;> omega
    case isFalse =>
      split
      case isTrue h =>
        refine .inr <| .inl ⟨_, rfl, ?_⟩
        constructor <;> simp only [Pending.least, Pending.bound] <;> grind
      case isFalse =>
        split
        case isTrue h =>
          refine .inr <| .inl ⟨_, rfl, ?_⟩
          constructor <;> simp only [Pending.least, Pending.bound] <;> grind
        case isFalse => exact .inr <| .inr rfl

-- The next byte narrows down the range of characters.
theorem Pending.Valid.narrow {p : Pending} (h : p.Valid) (hm : p.missing = 2 ∨ p.missing = 3)
    (hl : p.lower ≤ b) (hu : b ≤ p.upper) :
    ({ missing := p.missing - 1, bits := p.bits * 64 + (b - 0x80) } : Pending).Valid := by
  have ⟨_, _, _, nonAscii, inRange, surrogate⟩ := h
  have hl : p.lower - 0x80 ≤ b - 0x80 := Nat.sub_le_sub_right hl _
  have hu : b - 0x80 ≤ p.upper - 0x80 := Nat.sub_le_sub_right hu _
  simp only [Pending.least, Pending.bound] at nonAscii inRange surrogate
  rcases hm with hm | hm <;> simp only [hm, Nat.reduceSub, Nat.reducePow] at nonAscii inRange surrogate ⊢
  all_goals
    constructor <;> simp only [Pending.least, Pending.bound, Nat.reduceSub, Nat.reducePow]
    case missing   => simp
    case lower     => exact le_rfl
    case upper     => exact le_rfl
    case nonAscii  => linarith
    case inRange   => linarith
    case surrogate => exact surrogate.imp (fun h => by linarith) (fun h => by linarith)

-- A byte that continues a character either completes it, or leaves a pending one.
theorem step_valid (h : p.Valid) (hl : p.lower ≤ b) (hu : b ≤ p.upper) :
    (∃ c : Char, step (some p) b = ([c], none) ∧ 0x80 ≤ c.toNat) ∨
    ∃ p', step (some p) b = ([], some p') ∧ p'.Valid := by
  simp only [step, hl, hu, and_self, if_true]
  by_cases hm : p.missing = 1
  case pos =>
    have ⟨_, lower, _, nonAscii, inRange, surrogate⟩ := h
    simp only [Pending.least, Pending.bound, hm] at nonAscii inRange surrogate
    norm_num at nonAscii inRange surrogate
    refine .inl ⟨_, if_pos hm, ?_⟩
    rw [toNat_ofNat]
    · omega
    · simp only [Nat.isValidChar]
      omega
  case neg => exact .inr ⟨_, if_neg hm, h.narrow (h.missing.resolve_left hm) hl hu⟩

-- Text without replacements and other characters beyond ASCII consists of one byte for each character.
theorem decodeFrom_ascii (hs : ∀ p ∈ s, p.Valid) (h : ∀ c ∈ decodeFrom s l, c.toNat < 0x80) :
    s = none ∧ decodeFrom s l = l.map (.ofNat ·.toNat) := by
  induction l generalizing s
  case nil =>
    cases s
    case none   => exact ⟨rfl, rfl⟩
    case some p => exact absurd (h replacement (by simp [decodeFrom])) (by decide)
  case cons b tl hi =>
    simp only [decodeFrom, List.mem_append] at h ⊢
    have rest := hi (s := (step s b.toNat).2)
    cases s
    case none =>
      simp only [step] at h rest ⊢
      rcases lead_cases b.toNat with ⟨_, hl⟩ | ⟨p, hl, hp⟩ | hl <;> rw [hl] at h rest ⊢
      case inl =>
        have ⟨_, ht⟩ := rest (by simp) fun c hc => h c (.inr hc)
        exact ⟨trivial, by rw [ht]; rfl⟩
      case inr.inl =>
        have ⟨hn, _⟩ := rest (by simpa using hp) fun c hc => h c (.inr hc)
        contradiction
      case inr.inr => exact absurd (h replacement (.inl <| by simp)) (by decide)
    case some p =>
      have hp := hs p rfl
      by_cases hb : p.lower ≤ b.toNat ∧ b.toNat ≤ p.upper
      case neg =>
        refine absurd (h replacement (.inl ?_)) (by decide)
        simp [step, hb]
      case pos =>
        rcases step_valid hp hb.1 hb.2 with ⟨c, hl, hc⟩ | ⟨p', hl, hp'⟩ <;> rw [hl] at h rest
        case inl =>
          have := h c (.inl <| by simp)
          omega
        case inr =>
          have ⟨hn, _⟩ := rest (by simpa using hp') fun c hc => h c (.inr hc)
          contradiction

theorem decode_ascii (h : ∀ c ∈ decode l, c.toNat < 0x80) : decode l = l.map (.ofNat ·.toNat) :=
  (decodeFrom_ascii (by simp) h).2

-- Encoding

def encode (l : List Char) : List UInt8 :=
  l.flatMap String.utf8EncodeChar

theorem length_encode (l : List Char) : (encode l).length = (l.map Char.utf8Size).sum := by
  simp [encode, List.length_flatMap]

theorem decodeFrom_ofNat (hb : b < 256) : decodeFrom s (.ofNat b :: tl) =
    (step s b).1 ++ decodeFrom (step s b).2 tl := by
  have h : (UInt8.ofNat b).toNat = b := UInt8.toNat_ofNat_of_lt hb
  cases s <;> simp only [decodeFrom, h]

section Lead

theorem lead_one (h : n < 0x80) : lead n = ([.ofNat n], none) :=
  if_pos h

theorem lead_two (h : 2 ≤ n) (h' : n < 0x20) : lead (n + 0xC0) = ([], some ⟨1, n, 0x80, 0xBF⟩) := by
  rw [lead, if_neg (by omega), if_pos (by omega), Nat.add_sub_cancel]

theorem lead_three (h : n < 0x10) : lead (n + 0xE0) =
    ([], some ⟨2, n, if n = 0 then 0xA0 else 0x80, if n = 13 then 0x9F else 0xBF⟩) := by
  rw [lead, if_neg (by omega), if_neg (by omega), if_pos (by omega), Nat.add_sub_cancel]
  simp

theorem lead_four (h : n ≤ 4) : lead (n + 0xF0) =
    ([], some ⟨3, n, if n = 0 then 0x90 else 0x80, if n = 4 then 0x8F else 0xBF⟩) := by
  rw [lead, if_neg (by omega), if_neg (by omega), if_neg (by omega), if_pos (by omega), Nat.add_sub_cancel]
  simp

theorem step_last (hl : lower ≤ n + 0x80) (hu : n + 0x80 ≤ upper) :
    step (some ⟨1, bits, lower, upper⟩) (n + 0x80) = ([.ofNat (bits * 64 + n)], none) := by
  simp [step, hl, hu]

theorem step_next (hm : m ≠ 1) (hl : lower ≤ n + 0x80) (hu : n + 0x80 ≤ upper) :
    step (some ⟨m, bits, lower, upper⟩) (n + 0x80) = ([], some ⟨m - 1, bits * 64 + n, 0x80, 0xBF⟩) := by
  simp [step, hl, hu, hm]

end Lead

-- The bytes of a character are decoded to it.
theorem decodeFrom_encodeChar (c : Char) (l : List UInt8) :
    decodeFrom none (String.utf8EncodeChar c ++ l) = c :: decodeFrom none l := by
  have hc : Char.ofNat c.val.toNat = c := Char.ofNat_toNat c
  have hv : c.val.toNat < 0xD800 ∨ 0xDFFF < c.val.toNat ∧ c.val.toNat < 0x110000 := c.valid
  unfold String.utf8EncodeChar
  generalize c.val.toNat = v at hc hv
  dsimp only
  have first (b : Nat) : step none b = lead b := rfl
  split
  case isTrue h₁ =>
    rw [List.singleton_append, decodeFrom_ofNat (by omega), first, lead_one (by omega), hc]
    rfl
  case isFalse h₁ =>
    split
    case isTrue h₂ =>
      have hbits : v / 64 % 0x20 * 64 + v % 0x40 = v := by omega
      simp only [List.cons_append, List.nil_append]
      rw [decodeFrom_ofNat (by omega), first, lead_two (by omega) (by omega)]
      rw [decodeFrom_ofNat (by omega), step_last (by omega) (by omega), hbits, hc]
      rfl
    case isFalse h₂ =>
      split
      case isTrue h₃ =>
        have hbits : (v / 4096 % 0x10 * 64 + v / 64 % 0x40) * 64 + v % 0x40 = v := by omega
        simp only [List.cons_append, List.nil_append]
        rw [decodeFrom_ofNat (by omega), first, lead_three (by omega)]
        rw [decodeFrom_ofNat (by omega), step_next (by decide) (by split <;> omega) (by split <;> omega)]
        rw [decodeFrom_ofNat (by omega), step_last (by omega) (by omega), hbits, hc]
        rfl
      case isFalse h₃ =>
        have hbits : ((v / 262144 % 0x08 * 64 + v / 4096 % 0x40) * 64 + v / 64 % 0x40) * 64 + v % 0x40 = v := by
          omega
        simp only [List.cons_append, List.nil_append]
        rw [decodeFrom_ofNat (by omega), first, lead_four (by omega)]
        rw [decodeFrom_ofNat (by omega), step_next (by decide) (by split <;> omega) (by split <;> omega)]
        rw [decodeFrom_ofNat (by omega), step_next (by decide) (by omega) (by omega)]
        rw [decodeFrom_ofNat (by omega), step_last (by omega) (by omega), hbits, hc]
        rfl

theorem decode_encode (l : List Char) : decode (encode l) = l := by
  induction l with
  | nil          => rfl
  | cons c tl hi =>
    rw [encode, List.flatMap_cons]
    exact (decodeFrom_encodeChar c _).trans <| congrArg (c :: ·) hi

end Text.Utf8

-- Texts as sequences of UTF-16 code units, by which JavaScript compares and cuts them
namespace Text.Utf16

def units (c : Char) : List Nat :=
  if c.toNat < 0x10000 then [c.toNat]
  else [0xD800 + (c.toNat - 0x10000) / 0x400, 0xDC00 + (c.toNat - 0x10000) % 0x400]

def encode (l : List Char) : List Nat :=
  l.flatMap units

def Before (s t : String) : Prop :=
  encode s.toList < encode t.toList

instance : DecidableRel Before :=
  fun s t => inferInstanceAs (Decidable (encode s.toList < encode t.toList))

-- Half of a pair stands for no character.
def single (u : Nat) : Char :=
  if 0xD800 ≤ u ∧ u < 0xE000 then '\uFFFD' else .ofNat u

def decode : List Nat → List Char
  | []          => []
  | [u]         => [single u]
  | u :: v :: l =>
    if 0xD800 ≤ u ∧ u < 0xDC00 ∧ 0xDC00 ≤ v ∧ v < 0xE000
    then .ofNat (0x10000 + (u - 0xD800) * 0x400 + (v - 0xDC00)) :: decode l
    else single u :: decode (v :: l)

theorem decode_cons {u : Nat} (h : u < 0xD800 ∨ 0xE000 ≤ u) (l : List Nat) : decode (u :: l) = .ofNat u :: decode l := by
  have hs : single u = .ofNat u := if_neg (by omega)
  cases l with
  | nil      => simp only [decode, hs]
  | cons v l => rw [decode, if_neg (by omega), hs]

theorem decode_units (c : Char) (l : List Nat) : decode (units c ++ l) = c :: decode l := by
  have hc : Char.ofNat c.toNat = c := Char.ofNat_toNat c
  have hv : c.toNat < 0xD800 ∨ 0xDFFF < c.toNat ∧ c.toNat < 0x110000 := c.valid
  rw [units]
  split
  case isTrue =>
    rw [List.singleton_append, decode_cons (by omega), hc]
  case isFalse =>
    have hn : 0x10000 + (0xD800 + (c.toNat - 0x10000) / 0x400 - 0xD800) * 0x400 +
        (0xDC00 + (c.toNat - 0x10000) % 0x400 - 0xDC00) = c.toNat := by omega
    rw [List.cons_append, List.singleton_append, decode, if_pos (by omega), hn, hc]

theorem decode_encode (l : List Char) : decode (encode l) = l := by
  induction l with
  | nil         => rfl
  | cons c l hi => rw [encode, List.flatMap_cons, ← encode, decode_units, hi]

theorem lt_of_mem_encode {u : Nat} {l : List Char} (h : u ∈ encode l) : u < 0x10000 := by
  have ⟨c, _, hu⟩ := List.mem_flatMap.mp h
  have hv : c.toNat < 0xD800 ∨ 0xDFFF < c.toNat ∧ c.toNat < 0x110000 := c.valid
  rw [units] at hu
  split at hu
  case isTrue =>
    rw [List.mem_singleton.mp hu]
    assumption
  case isFalse =>
    simp only [List.mem_cons, List.not_mem_nil, or_false] at hu
    omega

theorem encode_ascii {l : List Char} (h : ∀ c ∈ l, c.toNat < 0x80) : encode l = l.map (·.toNat) := by
  induction l with
  | nil         => rfl
  | cons c l hi =>
    have ⟨hc, hl⟩ := List.forall_mem_cons.mp h
    rw [encode, List.flatMap_cons, ← encode, hi hl, units, if_pos (by omega)]
    rfl

end Text.Utf16
