import Mathlib.Data.List.DropRight
import Mergepay.Text.Replace

-- The details of failures that are persisted, from which secrets are removed
namespace Mergepay.Settlement

open Text

def MAX_FAILURE_DETAIL_LENGTH : Nat := 300

def redacted : JsString :=
  .ofString "[redacted]"

def isDigit (u : UInt16) : Bool :=
  0x30 ≤ u ∧ u ≤ 0x39

def isUpper (u : UInt16) : Bool :=
  0x41 ≤ u ∧ u ≤ 0x5A

def isLower (u : UInt16) : Bool :=
  0x61 ≤ u ∧ u ≤ 0x7A

def isLetter (u : UInt16) : Bool :=
  isUpper u || isLower u

def isWord (u : UInt16) : Bool :=
  isLetter u || isDigit u || u = 0x5F

def isAssignment (u : UInt16) : Bool :=
  u = 0x3D || u = 0x3A

-- The first unit of the space behind the label serves as its separator.
def bearerToken : Marker where
  labels      := [.ofString "bearer"]
  separator   := CharClass.isSpace
  word u      := isLetter u || isDigit u || u = 0x2E || u = 0x5F || u = 0x2D
  replacement := fun _ => .ofString "bearer " ++ redacted

-- The optional unit in two of the labels is spelled out.
def labelledSecret : Marker where
  labels      := ["secret", "token", "password", "privatekey", "private_key", "private key", "private-key",
    "apikey", "api_key", "api key", "api-key"].map .ofString
  separator   := isAssignment
  word u      := !CharClass.isSpace u
  replacement := (· ++ redacted)

def labelledEnvelope : Marker where
  labels      := ["xdr", "envelope", "transaction"].map .ofString
  separator   := isAssignment
  word u      := !CharClass.isSpace u
  replacement := (· ++ redacted)

def spaces : Pattern :=
  fun _ l => if l.head?.any CharClass.isSpace then some ([Pattern.space], (l.takeWhile CharClass.isSpace).length) else none

def trim (l : JsString) : JsString :=
  (l.dropWhile CharClass.isSpace).rdropWhile CharClass.isSpace

-- The message before it is trimmed and cut
def scrubbed (message : JsString) : JsString :=
  spaces.replaceAll <| labelledEnvelope.replaceAll <| labelledSecret.replaceAll <| bearerToken.replaceAll message

def safeFailureMessage (message : JsString) (maxLength : Nat) : JsString :=
  (trim (scrubbed message)).take maxLength

def isBase32 (u : UInt16) : Bool :=
  isUpper u || 0x32 ≤ u && u ≤ 0x37

def isBase64 (u : UInt16) : Bool :=
  isLetter u || isDigit u || u = 0x2B || u = 0x2F

-- 'S' plus 55 base32 characters
def isSecretSeed (l : JsString) : Bool :=
  l.length = 56 && l.head? = some 0x53 && l.all isBase32

def bareSecretSeed : Pattern :=
  fun prev l =>
    if ¬prev.any isWord ∧ isSecretSeed (l.take 56) ∧ ¬(l.drop 56).head?.any isWord then
      some (redacted, 56)
    else
      none

def bareXdrBlob : Pattern :=
  fun prev l =>
    let run := l.takeWhile isBase64
    if prev.any isWord ≠ l.head?.any isWord ∧ 120 ≤ run.length then
      some (redacted, run.length + (((l.drop run.length).takeWhile (· = 0x3D)).take 2).length)
    else
      none

def redactFailureDetail (message : JsString) : JsString :=
  bareXdrBlob.replaceAll (bareSecretSeed.replaceAll message)

-- The detail of an error that carries a message
def toSafeDetail (message : JsString) : JsString :=
  let scrubbed := redactFailureDetail (safeFailureMessage message MAX_FAILURE_DETAIL_LENGTH)
  let trimmed := (trim scrubbed).take MAX_FAILURE_DETAIL_LENGTH
  if trimmed.length > 0 then trimmed else .ofString "Settlement failed"

section Units

variable {u : UInt16}

theorem isSpace_eq_false (h₁ : 0x21 ≤ u.toNat) (h₂ : u.toNat ≤ 0x7E) : CharClass.isSpace u = false := by
  simp only [CharClass.isSpace, decide_eq_false_iff_not, UInt16.le_iff_toNat_le, ← UInt16.toNat_inj, UInt16.reduceToNat]
  omega

theorem isDigit_bounds (h : isDigit u = true) : 0x30 ≤ u.toNat ∧ u.toNat ≤ 0x39 := by
  simpa [isDigit, UInt16.le_iff_toNat_le] using h

theorem isUpper_bounds (h : isUpper u = true) : 0x41 ≤ u.toNat ∧ u.toNat ≤ 0x5A := by
  simpa [isUpper, UInt16.le_iff_toNat_le] using h

theorem isLower_bounds (h : isLower u = true) : 0x61 ≤ u.toNat ∧ u.toNat ≤ 0x7A := by
  simpa [isLower, UInt16.le_iff_toNat_le] using h

theorem isLetter_bounds (h : isLetter u = true) : 0x41 ≤ u.toNat ∧ u.toNat ≤ 0x7A := by
  rcases Bool.or_eq_true_iff.mp h with h | h
  · have := isUpper_bounds h
    omega
  · have := isLower_bounds h
    omega

theorem isBase64_bounds (h : isBase64 u = true) :
    0x2B ≤ u.toNat ∧ u.toNat ≤ 0x7A ∧ u.toNat ≠ 0x3A ∧ u.toNat ≠ 0x3D := by
  simp only [isBase64, Bool.or_eq_true, decide_eq_true_eq] at h
  rcases h with ((h | h) | rfl) | rfl
  · have := isLetter_bounds h
    omega
  · have := isDigit_bounds h
    omega
  · decide
  · decide

theorem isBase64_of_isBase32 (h : isBase32 u = true) : isBase64 u = true := by
  simp only [isBase32, Bool.or_eq_true, Bool.and_eq_true, decide_eq_true_eq, UInt16.le_iff_toNat_le,
    UInt16.reduceToNat] at h
  simp only [isBase64, isLetter, isDigit, Bool.or_eq_true, decide_eq_true_eq, UInt16.le_iff_toNat_le, UInt16.reduceToNat]
  rcases h with h | h
  · exact .inl (.inl (.inl (.inl h)))
  · exact .inl (.inl (.inr (by omega)))

theorem isSpace_of_isBase64 (h : isBase64 u = true) : CharClass.isSpace u = false := by
  have := isBase64_bounds h
  exact isSpace_eq_false (by omega) (by omega)

theorem isAssignment_of_isBase64 (h : isBase64 u = true) : isAssignment u = false := by
  have := isBase64_bounds h
  simp only [isAssignment, Bool.or_eq_false_iff, decide_eq_false_iff_not, ← UInt16.toNat_inj, UInt16.reduceToNat]
  omega

end Units

theorem redacted_eq : redacted = .ofString "[redacted" ++ [Pattern.bracket] := by
  decide

theorem bearerToken_regular : bearerToken.Regular where
  word u h := by
    simp only [bearerToken, Bool.or_eq_true, decide_eq_true_eq] at h
    rcases h with (((h | h) | rfl) | rfl) | rfl
    · have := isLetter_bounds h
      exact isSpace_eq_false (by omega) (by omega)
    · have := isDigit_bounds h
      exact isSpace_eq_false (by omega) (by omega)
    all_goals decide
  letter    := by decide
  separator := by decide
  closes _  := ⟨.ofString "bearer " ++ .ofString "[redacted", by rw [List.append_assoc, ← redacted_eq]; rfl⟩

theorem labelledSecret_regular : labelledSecret.Regular where
  word u h  := by simpa [labelledSecret] using h
  letter    := by decide
  separator := by decide
  closes l  := ⟨l ++ .ofString "[redacted", by rw [List.append_assoc, ← redacted_eq]; rfl⟩

theorem labelledEnvelope_regular : labelledEnvelope.Regular where
  word u h  := by simpa [labelledEnvelope] using h
  letter    := by decide
  separator := by decide
  closes l  := ⟨l ++ .ofString "[redacted", by rw [List.append_assoc, ← redacted_eq]; rfl⟩

theorem not_isBase64_space : isBase64 Pattern.space = false := by
  decide

theorem not_isSecretSeed {w : JsString} (h : Pattern.space ∈ w) : isSecretSeed w = false := by
  refine Bool.eq_false_iff.mpr fun hs => ?_
  simp only [isSecretSeed, Bool.and_eq_true, List.all_eq_true] at hs
  exact absurd (hs.2 _ h) (by decide)

theorem bareSecretSeed_settled (b : JsString) : bareSecretSeed.Settled (fun _ => True) b := by
  intro prev
  by_cases hb : b.length < 56
  case pos =>
    refine .inl fun t _ => if_neg fun ⟨_, h, _⟩ => ?_
    have hm : Pattern.space ∈ (b ++ Pattern.space :: t).take 56 := by
      have ⟨i, hi⟩ := Nat.exists_eq_add_of_lt hb
      have hlen : 56 - b.length = i + 1 := by omega
      simp [List.take_append, hlen]
    exact absurd h (Bool.eq_false_iff.mp (not_isSecretSeed hm))
  case neg =>
    have ht t : (b ++ Pattern.space :: t).take 56 = b.take 56 := List.take_append_of_le_length (by omega)
    have hd t : ((b ++ Pattern.space :: t).drop 56).head? = (b.drop 56 ++ [Pattern.space]).head? := by
      rw [List.drop_append_of_le_length (by omega)]
      cases b.drop 56 <;> rfl
    by_cases hc : ¬prev.any isWord ∧ isSecretSeed (b.take 56) ∧ ¬(b.drop 56 ++ [Pattern.space]).head?.any isWord
    case pos =>
      refine .inr ⟨redacted, 56, by decide, by omega, fun t _ => ?_⟩
      rw [bareSecretSeed, ht, hd, if_pos hc]
    case neg =>
      refine .inl fun t _ => ?_
      rw [bareSecretSeed, ht, hd, if_neg hc]

theorem bareXdrBlob_settled (b : JsString) : bareXdrBlob.Settled (fun _ => True) b := by
  intro prev
  have hr t : (b ++ Pattern.space :: t).takeWhile isBase64 = b.takeWhile isBase64 :=
    Marker.takeWhile_append_cons not_isBase64_space b t
  have hle : (b.takeWhile isBase64).length ≤ b.length := (List.takeWhile_prefix _).length_le
  have hh t : (b ++ Pattern.space :: t).head? = (b ++ [Pattern.space]).head? := by cases b <;> rfl
  have hp t : ((b ++ Pattern.space :: t).drop (b.takeWhile isBase64).length).takeWhile (· = 0x3D) =
      (b.drop (b.takeWhile isBase64).length).takeWhile (· = 0x3D) := by
    rw [List.drop_append_of_le_length hle]
    exact Marker.takeWhile_append_cons (by decide) _ t
  by_cases hc : prev.any isWord ≠ (b ++ [Pattern.space]).head?.any isWord ∧ 120 ≤ (b.takeWhile isBase64).length
  case pos =>
    have hpad : (((b.drop (b.takeWhile isBase64).length).takeWhile (· = 0x3D)).take 2).length ≤
        b.length - (b.takeWhile isBase64).length := by
      rw [← List.length_drop]
      exact (List.take_sublist ..).length_le.trans (List.takeWhile_prefix _).length_le
    refine .inr ⟨redacted, (b.takeWhile isBase64).length +
      (((b.drop (b.takeWhile isBase64).length).takeWhile (· = 0x3D)).take 2).length, ?_, ?_, fun t _ => ?_⟩
    · omega
    · omega
    · simp only [bareXdrBlob, hr, hh, hp]
      rw [if_pos hc]
  case neg =>
    refine .inl fun t _ => ?_
    simp only [bareXdrBlob, hr, hh, hp]
    exact if_neg hc

theorem redact_append {p : JsString} (hp : Pattern.Margin p) :
    Pattern.Margin (redactFailureDetail p) ∧
      ∀ t, redactFailureDetail (p ++ t) = redactFailureDetail p ++ redactFailureDetail t := by
  have hw : (some Pattern.space).any isWord = (none : Option UInt16).any isWord := by decide
  have ⟨hm₁, h₁⟩ := Pattern.replaceAll_margin bareSecretSeed_settled (fun l => by rw [bareSecretSeed, hw]; rfl) hp
  have ⟨hm₂, h₂⟩ := Pattern.replaceAll_margin bareXdrBlob_settled (fun l => by simp only [bareXdrBlob, hw]) hm₁
  exact ⟨hm₂, fun t => by rw [redactFailureDetail, h₁, h₂]; rfl⟩

section Spaces

variable {p t : JsString}

theorem spaces_prev (prev prev' : Option UInt16) (n : Nat) (l : JsString) :
    spaces.replaceFrom prev n l = spaces.replaceFrom prev' n l := by
  cases l <;> cases n <;> rfl

theorem spaces_some (hc : CharClass.isSpace c = true) (prev : Option UInt16) (l : JsString) :
    spaces prev (c :: l) = some ([Pattern.space], ((c :: l).takeWhile CharClass.isSpace).length) :=
  if_pos hc

theorem spaces_none (hc : CharClass.isSpace c = false) (prev : Option UInt16) (l : JsString) :
    spaces prev (c :: l) = none :=
  if_neg (Bool.eq_false_iff.mp hc)

-- A run of spaces does not reach into a text that starts without one.
theorem spaces_run (h : ∀ c ∈ t.head?, CharClass.isSpace c = false) (p : JsString) :
    (p ++ t).takeWhile CharClass.isSpace = p.takeWhile CharClass.isSpace := by
  by_cases hp : ∀ u ∈ p, CharClass.isSpace u = true
  case pos =>
    rw [List.takeWhile_append_of_pos hp, (Marker.spaces_of_head h).1, List.append_nil, List.takeWhile_eq_self_iff.mpr hp]
  case neg => exact (Marker.dropWhile_append_of_neg hp t).2

theorem spaces_append_from (h : ∀ c ∈ t.head?, CharClass.isSpace c = false) (prev : Option UInt16) (n : Nat)
    (hn : n ≤ p.length) :
    spaces.replaceFrom prev n (p ++ t) = spaces.replaceFrom prev n p ++ spaces.replaceAll t := by
  induction p generalizing n prev with
  | nil =>
    obtain rfl : n = 0 := Nat.le_zero.mp hn
    exact spaces_prev ..
  | cons c p hi =>
    cases n with
    | succ n => exact hi (some c) n (Nat.le_of_succ_le_succ hn)
    | zero   =>
      cases hc : CharClass.isSpace c with
      | true =>
        have hl : ((c :: p).takeWhile CharClass.isSpace).length - 1 ≤ p.length :=
          Nat.sub_le_of_le_add (List.takeWhile_prefix _).length_le
        have hr : (c :: (p ++ t)).takeWhile CharClass.isSpace = (c :: p).takeWhile CharClass.isSpace :=
          spaces_run h (c :: p)
        rw [List.cons_append, Pattern.replaceFrom_some (spaces_some hc ..), Pattern.replaceFrom_some (spaces_some hc ..),
          hr, hi (some c) _ hl, List.append_assoc]
      | false =>
        rw [List.cons_append, Pattern.replaceFrom_none (spaces_none hc ..), Pattern.replaceFrom_none (spaces_none hc ..),
          hi (some c) 0 (Nat.zero_le _)]
        rfl

theorem spaces_append (h : ∀ c ∈ t.head?, CharClass.isSpace c = false) (p : JsString) :
    spaces.replaceAll (p ++ t) = spaces.replaceAll p ++ spaces.replaceAll t :=
  spaces_append_from h none 0 (Nat.zero_le _)

theorem spaces_margin_from (q : JsString) (prev : Option UInt16) (n : Nat) (hn : n ≤ q.length) :
    ∃ r, spaces.replaceFrom prev n (q ++ [Pattern.space]) = r ++ [Pattern.space] := by
  induction q generalizing n prev with
  | nil =>
    obtain rfl : n = 0 := Nat.le_zero.mp hn
    exact ⟨[], rfl⟩
  | cons c q hi =>
    cases n with
    | succ n => exact hi (some c) n (Nat.le_of_succ_le_succ hn)
    | zero   =>
      rw [List.cons_append]
      cases hc : CharClass.isSpace c with
      | true =>
        rw [Pattern.replaceFrom_some (spaces_some hc ..)]
        by_cases hl : ((c :: (q ++ [Pattern.space])).takeWhile CharClass.isSpace).length - 1 ≤ q.length
        case pos =>
          have ⟨r, hr⟩ := hi (some c) _ hl
          exact ⟨[Pattern.space] ++ r, by rw [hr, List.append_assoc]⟩
        case neg =>
          have hle := (List.takeWhile_prefix (l := c :: (q ++ [Pattern.space])) CharClass.isSpace).length_le
          have hlen : ((c :: (q ++ [Pattern.space])).takeWhile CharClass.isSpace).length - 1 =
              (q ++ [Pattern.space]).length := by
            simp only [List.length_cons, List.length_append, List.length_nil] at hle hl ⊢
            omega
          have ⟨prev', he⟩ := @Pattern.replaceFrom_skip spaces (some c) (q ++ [Pattern.space]) []
          rw [List.append_nil] at he
          exact ⟨[], by rw [hlen, he]; rfl⟩
      | false =>
        rw [Pattern.replaceFrom_none (spaces_none hc ..)]
        have ⟨r, hr⟩ := hi (some c) 0 (Nat.zero_le _)
        exact ⟨c :: r, by rw [hr]; rfl⟩

theorem spaces_margin (h : Pattern.Margin p) : Pattern.Margin (spaces.replaceAll p) := by
  rcases h with rfl | ⟨q, rfl⟩
  · exact .inl rfl
  · exact .inr (spaces_margin_from q none 0 (Nat.zero_le _))

theorem spaces_word {w : JsString} (hw : ∀ u ∈ w, CharClass.isSpace u = false) (t : JsString) :
    spaces.replaceAll (w ++ t) = w ++ spaces.replaceAll t := by
  induction w with
  | nil         => rfl
  | cons c w hi =>
    have ⟨hc, hw⟩ := List.forall_mem_cons.mp hw
    rw [List.cons_append, Pattern.replaceAll, Pattern.replaceFrom_none (spaces_none hc ..), spaces_prev _ none]
    exact congrArg (c :: ·) (hi hw)

end Spaces

section Plain

variable {k : Marker} {p q t w : JsString}

theorem isLetter_of_lowerCase (h : isLower (lowerCase u) = true) : isLetter u = true := by
  rw [lowerCase] at h
  split at h
  case isTrue hu => exact Bool.or_eq_true_iff.mpr (.inl (decide_eq_true hu))
  case isFalse   => exact Bool.or_eq_true_iff.mpr (.inr h)

-- Labels start with letters. The separators are no units of secrets, and the words contain letters.
structure Plain (k : Marker) : Prop where
  regular   : k.Regular
  labels    : ∀ label ∈ k.labels, 2 ≤ label.length ∧ label.length ≤ 11 ∧ label.head?.any isLower = true
  separator : ∀ u, isBase64 u = true → k.separator u = false
  letter    : ∀ u, isLetter u = true → k.word u = true

theorem bearerToken_plain : Plain bearerToken where
  regular       := bearerToken_regular
  labels        := by decide
  separator u h := isSpace_of_isBase64 h
  letter u h    := by simp [bearerToken, h]

theorem isSpace_of_isLetter (h : isLetter u = true) : CharClass.isSpace u = false := by
  have := isLetter_bounds h
  exact isSpace_eq_false (by omega) (by omega)

theorem labelledSecret_plain : Plain labelledSecret where
  regular       := labelledSecret_regular
  labels        := by decide
  separator u h := isAssignment_of_isBase64 h
  letter u h    := by simp [labelledSecret, isSpace_of_isLetter h]

theorem labelledEnvelope_plain : Plain labelledEnvelope where
  regular       := labelledEnvelope_regular
  labels        := by decide
  separator u h := isAssignment_of_isBase64 h
  letter u h    := by simp [labelledEnvelope, isSpace_of_isLetter h]

theorem mute_of_letters (hk : Plain k) (hw : ∀ u ∈ w, isLetter u = false) : k.mute w = true := by
  refine Marker.mute_of_heads fun u hu label hl he => ?_
  have hh := (hk.labels label hl).2.2
  rw [he] at hh
  exact absurd (isLetter_of_lowerCase hh) (Bool.eq_false_iff.mp (hw u hu))

theorem replaceAll_mute (hk : Plain k) (hw : k.mute w = true) (t : JsString) :
    k.replaceAll (w ++ t) = w ++ k.replaceAll t :=
  Marker.replaceAll_mute (fun label hl => (hk.labels label hl).1) hw t

-- A text that starts with a letter, and continues in base64
def Opens (n : Nat) (c : UInt16) (t : JsString) : Prop :=
  isLetter c = true ∧ ∃ w r, t = c :: w ++ r ∧ n ≤ w.length ∧ ∀ u ∈ w, isBase64 u = true

theorem isBase64_of_isLetter (h : isLetter u = true) : isBase64 u = true := by
  simp [isBase64, h]

-- Labels are no longer than what the text loses of its start.
theorem opens_replaceAll (hk : Plain k) (h : Opens (n + 11) c t) : Opens n c (k.replaceAll t) := by
  have ⟨hc, w, r, ht, hn, hw⟩ := h
  have hs u (hu : u ∈ c :: w) : k.separator u = false := by
    rcases List.mem_cons.mp hu with rfl | hu
    · exact hk.separator u (isBase64_of_isLetter hc)
    · exact hk.separator u (hw u hu)
  have ⟨r', hr⟩ := Marker.replaceAll_prefix (fun label hl => (hk.labels label hl).2.1) hs r
  have hl : (c :: w).length - 11 = w.length - 11 + 1 := by
    rw [List.length_cons]
    omega
  refine ⟨hc, w.take (w.length - 11), r', ?_, ?_, fun u hu => hw u (List.mem_of_mem_take hu)⟩
  · rw [ht, hr, hl]
    rfl
  · rw [List.length_take]
    omega

theorem opens_mono (h : Opens n c t) (hm : m ≤ n) : Opens m c t := by
  have ⟨hc, w, r, ht, hn, hw⟩ := h
  exact ⟨hc, w, r, ht, hm.trans hn, hw⟩

theorem opens_head (h : Opens n c t) : ∃ l, t = c :: l ∧ CharClass.isSpace c = false := by
  have ⟨hc, w, r, ht, _⟩ := h
  exact ⟨w ++ r, ht, isSpace_of_isLetter hc⟩

theorem fits_of_opens (hk : Plain k) (h : Opens 10 c t) : k.Fits t := by
  have ⟨hc, w, r, ht, hn, hw⟩ := h
  constructor
  case head =>
    rintro d hd
    rw [ht] at hd
    obtain rfl := Option.some.inj hd
    exact ⟨isSpace_of_isLetter hc, hk.letter c hc⟩
  case label =>
    intro label hl _ d hd
    have hle := (hk.labels label hl).2.1
    rw [ht, List.take_append_of_le_length (by rw [List.length_cons]; omega)] at hd
    rcases List.mem_cons.mp (List.mem_of_mem_take hd) with rfl | hd
    · exact hk.separator d (isBase64_of_isLetter hc)
    · exact hk.separator d (hw d hd)

-- What follows starts with a space, and goes on with a unit that no label or word of a bearer token starts with.
def Quiet (q : JsString) : Prop :=
  (∀ c ∈ q.head?, c = Pattern.space) ∧ ∀ c ∈ (q.dropWhile CharClass.isSpace).head?, bearerToken.word c = false

theorem isLetter_of_word (h : bearerToken.word u = false) : isLetter u = false := by
  simp only [bearerToken, Bool.or_eq_false_iff] at h
  exact h.1.1.1.1

theorem replaceAll_quiet (hk : Plain k) (hq : Quiet q) : Quiet (k.replaceAll q) := by
  have ⟨hh, hw⟩ := hq
  set a := q.takeWhile CharClass.isSpace with ha
  have hab : a ++ q.dropWhile CharClass.isSpace = q := List.takeWhile_append_dropWhile
  have hsp u (hu : u ∈ a) : CharClass.isSpace u = true := List.mem_takeWhile_imp hu
  have hl u (hu : u ∈ a) : isLetter u = false :=
    Bool.eq_false_iff.mpr fun hl => Bool.eq_false_iff.mp (isSpace_of_isLetter hl) (hsp u hu)
  match hd : q.dropWhile CharClass.isSpace with
  | []     =>
    rw [hd, List.append_nil] at hab
    have he : k.replaceAll q = q := by
      have := replaceAll_mute hk (mute_of_letters hk hl) []
      rwa [List.append_nil, hab, show k.replaceAll [] = [] from rfl, List.append_nil] at this
    rwa [he]
  | c :: r =>
    have hc := hw c (by rw [hd]; rfl)
    have hns : CharClass.isSpace c = false := by
      have := List.head_dropWhile_not CharClass.isSpace (l := q) (by simp [hd])
      simpa [hd] using this
    have he : k.replaceAll q = a ++ c :: k.replaceAll r := by
      rw [← hab, hd, List.append_cons]
      refine (replaceAll_mute hk (mute_of_letters hk fun u hu => ?_) r).trans (List.append_cons ..).symm
      rcases List.mem_append.mp hu with hu | hu
      · exact hl u hu
      · exact List.mem_singleton.mp hu ▸ isLetter_of_word hc
    rw [he]
    constructor
    case left =>
      intro d hd'
      refine hh d ?_
      have hh : (a ++ c :: r).head? = (a ++ c :: k.replaceAll r).head? := by
        simp only [List.head?_append, List.head?_cons]
      rwa [← hab, hd, hh]
    case right =>
      rw [List.dropWhile_append_of_pos hsp, List.dropWhile_cons_of_neg (Bool.eq_false_iff.mp hns)]
      intro d hd'
      obtain rfl := Option.some.inj hd'
      exact hc

end Plain

end Mergepay.Settlement
