import Mergepay.Text.Number

-- The callbacks of anchors, which are signed over the bytes of their bodies
namespace Mergepay.Anchors

open Text

-- A header that is sent more than once may arrive as a list.
inductive HeaderValue
  | missing
  | single (value : String)
  | multiple (values : List String)
  deriving DecidableEq

def HeaderValue.first : HeaderValue → Option String
  | .missing         => none
  | .single value    => some value
  | .multiple values => values.head?

-- What the clock can show
structure Instant where
  ms    : Nat
  valid : ms ≤ 8640000000000000

def LowerHex (c : Char) : Prop :=
  c.isDigit = true ∨ 'a' ≤ c ∧ c ≤ 'f'

instance : DecidablePred LowerHex :=
  fun c => inferInstanceAs (Decidable (c.isDigit = true ∨ 'a' ≤ c ∧ c ≤ 'f'))

-- The digests of HMAC-SHA256 in hexadecimal notation
structure Hmac where
  digest        : (secret : String) → (rawBody : List UInt8) → List Char
  digest_length : ∀ secret rawBody, (digest secret rawBody).length = 64
  digest_hex    : ∀ secret rawBody, ∀ c ∈ digest secret rawBody, LowerHex c

structure CallbackRequest where
  rawBody   : List UInt8
  signature : HeaderValue
  timestamp : HeaderValue

inductive Sep24RejectionReason
  | missingSignature
  | malformedSignature
  | invalidSignature
  | staleTimestamp
  deriving DecidableEq

def SIGNATURE_PREFIX : List Char :=
  "sha256=".toList

-- Bytes from pairs of digits, up to the first pair that is none
def fromHex : List Char → List Nat
  | c :: d :: tl =>
    match Number.digit c, Number.digit d with
    | some m, some n => (16 * m + n) :: fromHex tl
    | _, _           => []
  | _            => []

def constantTimeEqualHex (a b : List Char) : Bool :=
  if a.length ≠ b.length then false else fromHex a = fromHex b

-- No character beyond ASCII becomes one of the prefix in lower case.
def normalizeSignature (raw : HeaderValue) : Option (List Char) := do
  let value ← raw.first
  let trimmed := trim value.toList
  let hex :=
    if SIGNATURE_PREFIX.isPrefixOf (trimmed.map Char.toLower) then
      trimmed.drop SIGNATURE_PREFIX.length
    else
      trimmed
  if hex.length = 64 ∧ hex.all (fun c => (Number.digit c).isSome) then
    return hex.map Char.toLower
  else
    none

def parseTimestamp (raw : HeaderValue) : Option Rat := do
  let value ← raw.first
  let numeric ← Number.number value.toList
  if numeric ≤ 0 then
    none
  else if numeric < 10 ^ 12 then
    Number.round (numeric * 1000)
  else
    return numeric

-- A difference that is not finite exceeds every tolerance.
def isStale (now : Instant) (timestamp : Rat) (toleranceMs : Nat) : Bool :=
  match Number.round (now.ms - timestamp) with
  | some d => |d| > toleranceMs
  | none   => true

def signSep24Payload (hmac : Hmac) (rawBody : List UInt8) (secret : String) : List Char :=
  hmac.digest secret rawBody

def verifySep24Signature (hmac : Hmac) (request : CallbackRequest) (secret : String) (now : Instant)
    (toleranceMs : Nat) : Except Sep24RejectionReason Unit :=
  match normalizeSignature request.signature with
  | none          => .error <| if request.signature ≠ .missing then .malformedSignature else .missingSignature
  | some provided =>
    if (parseTimestamp request.timestamp).any (isStale now · toleranceMs) then
      .error .staleTimestamp
    else if constantTimeEqualHex provided (signSep24Payload hmac request.rawBody secret) then
      .ok ()
    else
      .error .invalidSignature

theorem isDigit_iff : Char.isDigit c = true ↔ 48 ≤ c.toNat ∧ c.toNat ≤ 57 := by
  simp [Char.isDigit, UInt32.le_iff_toNat_le]

theorem lowerHex_iff : LowerHex c ↔ 48 ≤ c.toNat ∧ c.toNat ≤ 57 ∨ 97 ≤ c.toNat ∧ c.toNat ≤ 102 :=
  or_congr isDigit_iff Iff.rfl

theorem LowerHex.digit (h : LowerHex c) :
    Number.digit c = some (if c.toNat ≤ 57 then c.toNat - 48 else c.toNat - 87) := by
  unfold Number.digit
  rcases lowerHex_iff.mp h with hc | hc
  · rw [if_pos (isDigit_iff.mpr hc), if_pos hc.2]
    rfl
  · have hd : ¬c.isDigit = true := by rw [isDigit_iff]; omega
    have ha : 'a' ≤ c ∧ c ≤ 'f' := hc
    rw [if_neg hd, if_pos ha, if_neg (by omega)]
    congr 1
    have : 'a'.toNat = 97 := rfl
    omega

theorem LowerHex.digit_inj (hc : LowerHex c) (hd : LowerHex d) (h : Number.digit c = Number.digit d) : c = d := by
  have h₁ := lowerHex_iff.mp hc
  have h₂ := lowerHex_iff.mp hd
  rw [hc.digit, hd.digit, Option.some.injEq] at h
  refine Char.toNat_inj.mp ?_
  split at h <;> split at h <;> omega

theorem LowerHex.digit_lt (hc : LowerHex c) (h : Number.digit c = some n) : n < 16 := by
  have hn := lowerHex_iff.mp hc
  rw [hc.digit, Option.some.injEq] at h
  split at h <;> omega

theorem fromHex_cons (tl : List Char) (hc : LowerHex c) (hd : LowerHex d) :
    ∃ m n, Number.digit c = some m ∧ Number.digit d = some n ∧ m < 16 ∧ n < 16 ∧
      fromHex (c :: d :: tl) = (16 * m + n) :: fromHex tl := by
  refine ⟨_, _, hc.digit, hd.digit, hc.digit_lt hc.digit, hd.digit_lt hd.digit, ?_⟩
  rw [fromHex, hc.digit, hd.digit]

-- Two digests are equal if they denote the same bytes.
theorem fromHex_inj (n : Nat) {a b : List Char} (ha : a.length = 2 * n) (hb : b.length = 2 * n)
    (ha' : ∀ c ∈ a, LowerHex c) (hb' : ∀ c ∈ b, LowerHex c) (h : fromHex a = fromHex b) : a = b := by
  induction n generalizing a b with
  | zero =>
    rw [List.length_eq_zero_iff.mp ha, List.length_eq_zero_iff.mp hb]
  | succ n hi =>
    match a, b with
    | c :: d :: a, c' :: d' :: b =>
      simp only [List.forall_mem_cons] at ha' hb'
      obtain ⟨m₁, n₁, hm₁, hn₁, _, _, he₁⟩ := fromHex_cons a ha'.1 ha'.2.1
      obtain ⟨m₂, n₂, hm₂, hn₂, _, _, he₂⟩ := fromHex_cons b hb'.1 hb'.2.1
      rw [he₁, he₂, List.cons.injEq] at h
      have hm : m₁ = m₂ := by omega
      have hn : n₁ = n₂ := by omega
      have hc : c = c' := ha'.1.digit_inj hb'.1 (by rw [hm₁, hm₂, hm])
      have hd : d = d' := ha'.2.1.digit_inj hb'.2.1 (by rw [hn₁, hn₂, hn])
      have htl : a = b := hi (by simpa [Nat.mul_succ] using ha) (by simpa [Nat.mul_succ] using hb) ha'.2.2 hb'.2.2 h.2
      rw [hc, hd, htl]

theorem constantTimeEqualHex_iff {a b : List Char} (ha : a.length = 64) (hb : b.length = 64)
    (ha' : ∀ c ∈ a, LowerHex c) (hb' : ∀ c ∈ b, LowerHex c) : constantTimeEqualHex a b = true ↔ a = b := by
  rw [constantTimeEqualHex, if_neg (by omega), decide_eq_true_eq]
  exact ⟨fromHex_inj 32 ha hb ha' hb', congrArg fromHex⟩

theorem toNat_toLower (c : Char) :
    c.toLower.toNat = if 65 ≤ c.toNat ∧ c.toNat ≤ 90 then c.toNat + 32 else c.toNat := by
  unfold Char.toLower
  split
  case isTrue h =>
    have hc : 65 ≤ c.toNat ∧ c.toNat ≤ 90 := h
    rw [if_pos hc]
    have hlt : c.val.toNat + (32 : UInt32).toNat < 2 ^ 32 := by
      have : c.val.toNat = c.toNat := rfl
      have : (32 : UInt32).toNat = 32 := rfl
      omega
    exact (UInt32.toNat_add ..).trans (Nat.mod_eq_of_lt hlt)
  case isFalse h => exact (if_neg h).symm

theorem lowerHex_toLower (h : (Number.digit c).isSome) : LowerHex c.toLower := by
  have hc : c.isDigit = true ∨ ('a' ≤ c ∧ c ≤ 'f') ∨ 'A' ≤ c ∧ c ≤ 'F' := by
    unfold Number.digit at h
    split at h
    case isTrue hd => exact .inl hd
    case isFalse =>
      split at h
      case isTrue ha => exact .inr (.inl ha)
      case isFalse =>
        split at h
        case isTrue hA => exact .inr (.inr hA)
        case isFalse   => contradiction
  have hn : 48 ≤ c.toNat ∧ c.toNat ≤ 57 ∨ (97 ≤ c.toNat ∧ c.toNat ≤ 102) ∨ 65 ≤ c.toNat ∧ c.toNat ≤ 70 :=
    hc.imp isDigit_iff.mp id
  rw [lowerHex_iff, toNat_toLower]
  split <;> omega

theorem normalizeSignature_spec (h : normalizeSignature raw = some s) : s.length = 64 ∧ ∀ c ∈ s, LowerHex c := by
  unfold normalizeSignature at h
  simp only [Option.bind_eq_bind, Option.bind_eq_some_iff] at h
  obtain ⟨value, _, h⟩ := h
  generalize (if SIGNATURE_PREFIX.isPrefixOf _ = true then _ else _) = hex at h
  split at h
  case isTrue hc =>
    rw [← Option.some.inj h]
    refine ⟨by simpa using hc.1, fun c hm => ?_⟩
    obtain ⟨d, hd, rfl⟩ := List.mem_map.mp hm
    exact lowerHex_toLower (List.all_eq_true.mp hc.2 d hd)
  case isFalse => contradiction

-- The signature is read as the digest, and a timestamp that can be read is not stale.
theorem verifySep24Signature_eq_ok :
    verifySep24Signature hmac request secret now toleranceMs = .ok () ↔
      normalizeSignature request.signature = some (signSep24Payload hmac request.rawBody secret) ∧
        ∀ t ∈ parseTimestamp request.timestamp, isStale now t toleranceMs = false := by
  unfold verifySep24Signature
  cases hs : normalizeSignature request.signature with
  | none          => simp
  | some provided =>
    have ⟨hl, hx⟩ := normalizeSignature_spec hs
    have heq : _ ↔ provided = signSep24Payload hmac request.rawBody secret :=
      constantTimeEqualHex_iff hl (hmac.digest_length ..) hx (hmac.digest_hex _ _)
    simp only [Option.some.injEq, ← heq]
    split
    case isTrue ht =>
      obtain ⟨t, ht, hst⟩ := (Option.any_eq_true ..).mp ht
      simp only [reduceCtorEq, false_iff, not_and]
      exact fun _ hf => Bool.false_ne_true <| (hf t ht).symm.trans hst
    case isFalse ht =>
      have hf : ∀ t ∈ parseTimestamp request.timestamp, isStale now t toleranceMs = false :=
        (Option.any_eq_false ..).mp (Bool.eq_false_iff.mpr ht)
      rw [and_iff_left hf]
      split
      case isTrue he  => exact iff_of_true rfl he
      case isFalse he => exact iff_of_false (by simp) he

theorem isStale_eq_false (now t : Instant) : isStale now t.ms toleranceMs = false ↔ |(now.ms : Int) - t.ms| ≤ toleranceMs := by
  have hr : Number.round (now.ms - t.ms) = some ((now.ms - t.ms : Int) : Rat) := by
    have h₁ := now.valid
    have h₂ := t.valid
    have := Number.round_intCast (n := (now.ms : Int) - t.ms) (by omega)
    push_cast at this ⊢
    exact this
  unfold isStale
  simp only [hr, gt_iff_lt, decide_eq_false_iff_not, not_lt]
  exact_mod_cast Iff.rfl

-- A timestamp in milliseconds is read as it is written.
theorem parseTimestamp_render {value : String} {n : Nat} (hn : n < 2 ^ 53) (h : 10 ^ 12 ≤ n)
    (he : value.toList = Number.render n) : parseTimestamp (.single value) = some (n : Rat) := by
  have hr : Number.number value.toList = some (n : Rat) := by
    rw [he, Number.number_render (by simpa using hn)]
    rfl
  have h₁ : ¬(n : Rat) ≤ 0 := by
    have : (0 : Rat) < n := by exact_mod_cast (by omega : 0 < n)
    exact not_le.mpr this
  have h₂ : ¬(n : Rat) < 10 ^ 12 := not_lt.mpr (by exact_mod_cast h)
  simp only [parseTimestamp, HeaderValue.first, Option.bind_eq_bind, Option.bind_some, hr, if_neg h₁, if_neg h₂]
  rfl

end Mergepay.Anchors
