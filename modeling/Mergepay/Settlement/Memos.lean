import Mergepay.Text.JsString
import Mergepay.Treasury.Lifecycle

-- The memos of payments as strings of JavaScript, which may be no texts
namespace Mergepay.RawMemo

open Text

def ALPHABET : JsString :=
  .ofString "ABCDEFGHJKLMNPQRSTUVWXYZ23456789"

def mpPrefix : JsString :=
  .ofString "MP:"

def maxMemoBytes : Nat := 28

def minMemoLength : Nat :=
  mpPrefix.length + 1

-- A whole match of one or more units of the class
def validCodeRe (code : JsString) : Bool :=
  code ≠ [] && code.all (CharClass.contains (CharClass.escape ALPHABET))

def isValidMemoCode (code : JsString) : Bool :=
  if code.length = 0 then false else validCodeRe code

structure MemoParseOk where
  code : JsString
  memo : JsString
  deriving DecidableEq

def parseMemo (raw : JsString) : Except JsString MemoParseOk :=
  if raw.length = 0 then
    .error <| .ofString "Memo must not be empty."
  else if raw.length < minMemoLength then
    .error <| .ofString "Memo is too short to contain a valid code."
  else if ¬mpPrefix.isPrefixOf raw then
    .error <| .ofString "Mergepay memo must start with 'MP:'."
  else if raw.byteLength > maxMemoBytes then
    .error <| .ofString "Mergepay memo must be 28 UTF-8 bytes or fewer to fit in a Stellar MEMO_TEXT."
  else
    let code := raw.drop mpPrefix.length
    if code.length = 0 then
      .error <| .ofString "Memo code must not be empty after 'MP:' prefix."
    else if ¬validCodeRe code then
      .error <| .ofString Memo.invalidCharacters
    else
      .ok ⟨code, raw⟩

def buildMemo (code : JsString) : Except JsString MemoParseOk :=
  if code.length = 0 then
    .error <| .ofString "Memo code must not be empty."
  else if ¬isValidMemoCode code then
    .error <| .ofString Memo.invalidCharacters
  else
    let memo := mpPrefix ++ code
    if memo.byteLength > maxMemoBytes then
      .error <| .ofString "Memo must be 28 UTF-8 bytes or fewer to fit in a Stellar MEMO_TEXT."
    else
      .ok ⟨code, memo⟩

inductive PaymentMemoFailureReason
  | missingMemo
  | unsupportedMemoType
  | invalidHashMemo
  | hashMemoMismatch
  | malformedMemo
  | codeMismatch
  deriving DecidableEq

structure PaymentMemoFailure where
  reason  : PaymentMemoFailureReason
  message : JsString
  deriving DecidableEq

structure OnChainMemo where
  memoType : Option JsString
  memo     : Option JsString

-- Base64 has no units beyond ASCII.
def isValidHashMemo (memo : JsString) : Bool :=
  memo.all (· < 0x80) && Memo.isValidHashMemo (memo.map (.ofNat ·.toNat))

def validatePaymentMemo (onChain : OnChainMemo) (expectedCode : JsString) : Except PaymentMemoFailure MemoParseOk :=
  let memoType := onChain.memoType.getD (.ofString "none")
  let memo := onChain.memo.getD []
  let unexpected := "Unexpected memo type: expected \"text\", got \"hash\""
  if memoType = .ofString "none" then
    .error ⟨.missingMemo, .ofString "Transaction has no memo"⟩
  else if memoType = .ofString "hash" then
    if ¬isValidHashMemo memo then
      .error ⟨.invalidHashMemo,
        .ofString (unexpected ++ "; the hash memo is malformed (expected 32 bytes, base64-encoded)")⟩
    else
      .error ⟨.hashMemoMismatch, .ofString (unexpected ++ "; a hash memo cannot carry the MP: settlement reference")⟩
  else if memoType ≠ .ofString "text" then
    .error ⟨.unsupportedMemoType,
      .ofString "Unexpected memo type: expected \"text\", got \"" ++ memoType.take 16 ++ .ofString "\""⟩
  else if memo.length = 0 then
    .error ⟨.missingMemo, .ofString "Transaction has no memo"⟩
  else
    match parseMemo memo with
    | .error message => .error ⟨.malformedMemo,
        .ofString "Transaction memo is not a valid Mergepay reference: " ++ message⟩
    | .ok parsed =>
      if parsed.code ≠ expectedCode then
        .error ⟨.codeMismatch, .ofString "Transaction memo does not match the expected settlement reference"⟩
      else
        .ok ⟨parsed.code, parsed.memo⟩

structure IsCode (code : JsString) : Prop where
  nonempty : 1 ≤ code.length
  short    : code.length ≤ 25
  chars    : ∀ u ∈ code, u ∈ ALPHABET

variable {code raw : JsString} {r : MemoParseOk}

theorem validCodeRe_iff : validCodeRe code = true ↔ code ≠ [] ∧ ∀ u ∈ code, u ∈ ALPHABET := by
  simp [validCodeRe, CharClass.contains_escape]

theorem isValidMemoCode_iff : isValidMemoCode code = true ↔ code ≠ [] ∧ ∀ u ∈ code, u ∈ ALPHABET := by
  cases code <;> simp [isValidMemoCode, validCodeRe_iff]

-- Codes are ASCII, so that units and bytes are counted alike.
theorem byteLength_memo (h : ∀ u ∈ code, u ∈ ALPHABET) : (mpPrefix ++ code).byteLength = 3 + code.length := by
  have hm : ∀ u ∈ mpPrefix, u < 0x80 := List.forall_iff_forall_mem.mp (by decide)
  have ha : ∀ u ∈ ALPHABET, u < 0x80 := List.forall_iff_forall_mem.mp (by decide)
  have hl : mpPrefix.length = 3 := by decide
  rw [JsString.byteLength_ascii, List.length_append, hl]
  exact List.forall_mem_append.mpr ⟨hm, fun u hu => ha u (h u hu)⟩

theorem parseMemo_eq_ok : parseMemo raw = .ok r ↔ raw = mpPrefix ++ r.code ∧ r.memo = raw ∧ IsCode r.code := by
  have hl : mpPrefix.length = 3 := by decide
  have hm : maxMemoBytes = 28 := rfl
  constructor
  case mp =>
    intro h
    simp only [parseMemo] at h
    split at h
    case isTrue => contradiction
    split at h
    case isTrue => contradiction
    split at h
    case isTrue => contradiction
    case isFalse hp =>
      have ⟨code, hc⟩ := List.isPrefixOf_iff_prefix.mp (not_not.mp hp)
      subst hc
      rw [List.drop_left] at h
      split at h
      case isTrue => contradiction
      case isFalse hb =>
        split at h
        case isTrue => contradiction
        split at h
        case isTrue => contradiction
        case isFalse hv =>
          have ⟨hn, hv⟩ := validCodeRe_iff.mp (not_not.mp hv)
          rw [byteLength_memo hv] at hb
          have hs : code.length ≤ 25 := by omega
          cases h
          exact ⟨rfl, rfl, List.length_pos_iff.mpr hn, hs, hv⟩
  case mpr =>
    intro ⟨he, hr, hc⟩
    have ⟨hn, hs, hv⟩ := hc
    have hb := byteLength_memo hv
    have hp : mpPrefix.isPrefixOf raw = true := List.isPrefixOf_iff_prefix.mpr ⟨r.code, he.symm⟩
    have hd : raw.drop mpPrefix.length = r.code := by rw [he, List.drop_left]
    have hlen : raw.length = 3 + r.code.length := by rw [he, List.length_append, hl]
    have hc : validCodeRe r.code = true := validCodeRe_iff.mpr ⟨List.length_pos_iff.mp hn, hv⟩
    rw [← he] at hb
    simp only [parseMemo, minMemoLength, hd]
    rw [if_neg (by omega), if_neg (by omega), if_neg (not_not.mpr hp), if_neg (by omega), if_neg (by omega),
      if_neg (not_not.mpr hc), ← hr]

theorem buildMemo_eq_ok : buildMemo code = .ok r ↔ r.code = code ∧ r.memo = mpPrefix ++ code ∧ IsCode code := by
  have hm : maxMemoBytes = 28 := rfl
  constructor
  case mp =>
    intro h
    simp only [buildMemo] at h
    split at h
    case isTrue => contradiction
    split at h
    case isTrue => contradiction
    case isFalse hv =>
      split at h
      case isTrue => contradiction
      case isFalse hb =>
        have ⟨hn, hv⟩ := isValidMemoCode_iff.mp (not_not.mp hv)
        rw [byteLength_memo hv] at hb
        have hs : code.length ≤ 25 := by omega
        cases h
        exact ⟨rfl, rfl, List.length_pos_iff.mpr hn, hs, hv⟩
  case mpr =>
    intro ⟨hc, hr, hn, hs, hv⟩
    have hb := byteLength_memo hv
    have hi : isValidMemoCode code = true := isValidMemoCode_iff.mpr ⟨List.length_pos_iff.mp hn, hv⟩
    subst hc
    simp only [buildMemo]
    rw [if_neg (by omega), if_neg (not_not.mpr hi), if_neg (by omega), ← hr]

-- No other memo is attributed.
theorem memoType_of_valid {onChain : OnChainMemo} (h : validatePaymentMemo onChain code = .ok r) :
    onChain.memoType = some (.ofString "text") := by
  simp only [validatePaymentMemo] at h
  split at h
  case isTrue => contradiction
  case isFalse hn =>
    split at h
    case isTrue =>
      split at h
      case isTrue  => contradiction
      case isFalse => contradiction
    case isFalse =>
      split at h
      case isTrue => contradiction
      case isFalse ht =>
        cases hm : onChain.memoType with
        | none   => simp [hm] at hn
        | some t => simpa [hm] using ht

theorem validatePaymentMemo_text {memo : Option JsString} :
    validatePaymentMemo ⟨some (.ofString "text"), memo⟩ code = .ok r ↔
    parseMemo (memo.getD []) = .ok r ∧ r.code = code := by
  have h₁ : JsString.ofString "text" ≠ .ofString "none" := by decide
  have h₂ : JsString.ofString "text" ≠ .ofString "hash" := by decide
  simp only [validatePaymentMemo, Option.getD_some, if_neg h₁, if_neg h₂, ne_eq, not_true_eq_false, if_false]
  split
  case isTrue h =>
    have hp : parseMemo (memo.getD []) = .error (.ofString "Memo must not be empty.") := if_pos h
    simp [hp]
  case isFalse h =>
    cases hp : parseMemo (memo.getD []) with
    | error m => simp
    | ok p    =>
      by_cases hc : p.code = code
      case pos =>
        subst hc
        have he : p = r → r.code = p.code := fun he => he ▸ rfl
        simpa using he
      case neg =>
        have he : p = r → r.code ≠ code := fun he => he ▸ hc
        simpa [hc] using he

theorem validatePaymentMemo_eq_ok {onChain : OnChainMemo} : validatePaymentMemo onChain code = .ok r ↔
    onChain.memoType = some (.ofString "text") ∧ onChain.memo = some (mpPrefix ++ code) ∧ IsCode code ∧
    r = ⟨code, mpPrefix ++ code⟩ := by
  obtain ⟨memoType, memo⟩ := onChain
  constructor
  case mp =>
    intro h
    have ht := memoType_of_valid h
    subst ht
    have ⟨hp, hc⟩ := validatePaymentMemo_text.mp h
    subst hc
    have ⟨hm, hr, hc⟩ := parseMemo_eq_ok.mp hp
    cases memo with
    | none     => exact absurd hm (by simp [show mpPrefix ≠ [] by decide])
    | some raw => exact ⟨rfl, congrArg some hm, hc, congrArg (MemoParseOk.mk r.code) (hr.trans hm)⟩
  case mpr =>
    intro ⟨ht, hm, hc, hr⟩
    subst ht hm hr
    exact validatePaymentMemo_text.mpr ⟨parseMemo_eq_ok.mpr ⟨rfl, rfl, hc⟩, rfl⟩

-- Texts are parsed as by the model that knows no other strings.

theorem alphabet_eq : ALPHABET = Memo.alphabet.map fun c => .ofNat c.toNat := by
  decide

theorem lt_of_mem_alphabet : ∀ c ∈ Memo.alphabet, c.toNat < 0x80 :=
  List.forall_iff_forall_mem.mp (by decide)

theorem units_mem_alphabet {c : Char} :
    (∀ u ∈ (Utf16.units c).map UInt16.ofNat, u ∈ ALPHABET) ↔ c ∈ Memo.alphabet := by
  have hv : c.toNat < 0xD800 ∨ 0xDFFF < c.toNat ∧ c.toNat < 0x110000 := c.valid
  have hu {n : Nat} (hn : n < 0x10000) (h : UInt16.ofNat n ∈ ALPHABET) : ∃ d ∈ Memo.alphabet, d.toNat = n := by
    rw [alphabet_eq] at h
    obtain ⟨d, hd, he⟩ := List.mem_map.mp h
    have hd' : d.toNat < 0x10000 := Nat.lt_trans (lt_of_mem_alphabet d hd) (by decide)
    have he := congrArg UInt16.toNat he
    rw [UInt16.toNat_ofNat_of_lt' hd', UInt16.toNat_ofNat_of_lt' hn] at he
    exact ⟨d, hd, he⟩
  constructor
  case mp =>
    intro h
    rw [Utf16.units] at h
    split at h
    case isTrue hc =>
      obtain ⟨d, hd, he⟩ := hu hc (h _ (by simp))
      exact Char.toNat_inj.mp he ▸ hd
    case isFalse hc =>
      obtain ⟨d, hd, he⟩ := hu (n := 0xD800 + (c.toNat - 0x10000) / 0x400) (by omega) (h _ (by simp))
      have hd := lt_of_mem_alphabet d hd
      omega
  case mpr =>
    intro h
    have hc := lt_of_mem_alphabet c h
    rw [Utf16.units, if_pos (by omega), alphabet_eq]
    simpa using ⟨c, h, rfl⟩

theorem chars_ofString {s : String} : (∀ u ∈ JsString.ofString s, u ∈ ALPHABET) ↔ ∀ c ∈ s.toList, c ∈ Memo.alphabet := by
  simp only [JsString.ofString, Utf16.encode, List.map_flatMap, List.mem_flatMap]
  constructor
  case mp  => exact fun h c hc => units_mem_alphabet.mp fun u hu => h u ⟨c, hc, hu⟩
  case mpr =>
    rintro h u ⟨c, hc, hu⟩
    exact units_mem_alphabet.mpr (h c hc) u hu

theorem isCode_ofString {s : String} : IsCode (.ofString s) ↔
    1 ≤ s.toList.length ∧ s.toList.length ≤ 25 ∧ ∀ c ∈ s.toList, c ∈ Memo.alphabet := by
  have hl (h : ∀ c ∈ s.toList, c ∈ Memo.alphabet) : (JsString.ofString s).length = s.toList.length := by
    rw [JsString.ofString, Utf16.encode_ascii fun c hc => lt_of_mem_alphabet c (h c hc), List.length_map,
      List.length_map]
  constructor
  case mp =>
    rintro ⟨hn, hs, hc⟩
    have hc := chars_ofString.mp hc
    exact ⟨hl hc ▸ hn, hl hc ▸ hs, hc⟩
  case mpr =>
    rintro ⟨hn, hs, hc⟩
    exact ⟨(hl hc).symm ▸ hn, (hl hc).symm ▸ hs, chars_ofString.mpr hc⟩

theorem sum_map_one {l : List Char} {f : Char → Nat} (hf : ∀ c ∈ Memo.alphabet, f c = 1)
    (h : ∀ c ∈ l, c ∈ Memo.alphabet) : (l.map f).sum = l.length := by
  rw [List.map_eq_replicate_iff.mpr fun c hc => hf c (h c hc), List.sum_replicate_nat, Nat.mul_one]

theorem parse_text {s code : String} : Memo.parseMemo s = .ok code ↔ s = "MP:" ++ code ∧
    1 ≤ code.toList.length ∧ code.toList.length ≤ 25 ∧ ∀ c ∈ code.toList, c ∈ Memo.alphabet := by
  have hb {l : List Char} (h : ∀ c ∈ l, c ∈ Memo.alphabet) :
      Memo.byteLength ('M' :: 'P' :: ':' :: l) = 3 + l.length := by
    have hs := sum_map_one (f := Char.utf8Size) (List.forall_iff_forall_mem.mp (by decide +kernel)) h
    simp only [Memo.byteLength, List.map_cons, List.sum_cons, hs, show 'M'.utf8Size = 1 from rfl,
      show 'P'.utf8Size = 1 from rfl, show ':'.utf8Size = 1 from rfl]
    omega
  have hl {l : List Char} (h : ∀ c ∈ l, c ∈ Memo.alphabet) : Memo.length ('M' :: 'P' :: ':' :: l) = 3 + l.length := by
    have hs := sum_map_one (f := fun c => if c.toNat < 0x10000 then 1 else 2)
      (List.forall_iff_forall_mem.mp (by decide +kernel)) h
    simp only [Memo.length, List.map_cons, List.sum_cons, hs]
    show 1 + (1 + (1 + l.length)) = _
    omega
  have hm : Memo.maxMemoBytes = 28 := rfl
  have hi {l : List Char} : Memo.isValidMemoCode l = true ↔ l ≠ [] ∧ ∀ c ∈ l, c ∈ Memo.alphabet := by
    simp [Memo.isValidMemoCode]
  constructor
  case mp =>
    intro h
    simp only [Memo.parseMemo] at h
    split at h
    case isTrue => contradiction
    split at h
    case isTrue => contradiction
    split at h
    case h_2 => contradiction
    case h_1 l hs =>
      split at h
      case isTrue => contradiction
      case isFalse hn =>
        split at h
        case isTrue => contradiction
        split at h
        case isTrue => contradiction
        case isFalse hv =>
          obtain ⟨he, hv⟩ := hi.mp (not_not.mp hv)
          rw [hs, hb hv] at hn
          have hs' : l.length ≤ 25 := by omega
          have ht : s = "MP:" ++ .ofList l := String.ext (by simp [hs])
          cases h
          rw [String.toList_ofList]
          exact ⟨ht, List.length_pos_iff.mpr he, hs', hv⟩
  case mpr =>
    rintro ⟨hs, hn, hl', hv⟩
    have ht : s.toList = 'M' :: 'P' :: ':' :: code.toList := by simp [hs]
    have he := List.length_pos_iff.mp hn
    simp only [Memo.parseMemo, ht]
    rw [if_neg (by simp), if_neg (by rw [hl hv]; omega), if_neg (by rw [hb hv]; omega), if_neg he,
      if_neg (not_not.mpr (hi.mpr ⟨he, hv⟩)), String.ofList_toList]

theorem parseMemo_text {s code : String} :
    parseMemo (.ofString s) = .ok ⟨.ofString code, .ofString s⟩ ↔ Memo.parseMemo s = .ok code := by
  rw [parseMemo_eq_ok, parse_text, isCode_ofString, mpPrefix, ← JsString.ofString_append,
    JsString.ofString_injective.eq_iff]
  simp

theorem memo_grammar :
    (∀ raw r, parseMemo raw = .ok r ↔ raw = mpPrefix ++ r.code ∧ r.memo = raw ∧ IsCode r.code) ∧
    (∀ code, (∃ m, buildMemo code = .ok m) ↔ ∃ r, parseMemo (mpPrefix ++ code) = .ok r) ∧
    (∀ code m, buildMemo code = .ok m → ∃ r, parseMemo m.memo = .ok r ∧ r.code = code) ∧
    (∀ onChain expected, (∃ r, validatePaymentMemo onChain expected = .ok r) ↔
      onChain.memoType = some (.ofString "text") ∧ onChain.memo = some (mpPrefix ++ expected) ∧ IsCode expected) ∧
    ∀ onChain code code' r r', validatePaymentMemo onChain code = .ok r → validatePaymentMemo onChain code' = .ok r' →
      code = code' := by
  have hb {code} : (∃ m, buildMemo code = .ok m) ↔ IsCode code :=
    ⟨fun ⟨_, h⟩ => (buildMemo_eq_ok.mp h).2.2, fun h => ⟨⟨code, _⟩, buildMemo_eq_ok.mpr ⟨rfl, rfl, h⟩⟩⟩
  have hp {code} : (∃ r, parseMemo (mpPrefix ++ code) = .ok r) ↔ IsCode code := by
    constructor
    case mp =>
      intro ⟨r, h⟩
      have ⟨he, _, hc⟩ := parseMemo_eq_ok.mp h
      exact List.append_cancel_left he ▸ hc
    case mpr => exact fun h => ⟨⟨code, _⟩, parseMemo_eq_ok.mpr ⟨rfl, rfl, h⟩⟩
  refine ⟨fun _ _ => parseMemo_eq_ok, fun _ => hb.trans hp.symm, ?_, ?_, ?_⟩
  case refine_1 =>
    intro code m h
    have ⟨_, hm, hc⟩ := buildMemo_eq_ok.mp h
    exact ⟨⟨code, m.memo⟩, parseMemo_eq_ok.mpr ⟨hm, rfl, hc⟩, rfl⟩
  case refine_2 =>
    intro onChain expected
    constructor
    case mp =>
      intro ⟨r, h⟩
      have ⟨ht, hm, hc, _⟩ := validatePaymentMemo_eq_ok.mp h
      exact ⟨ht, hm, hc⟩
    case mpr => exact fun ⟨ht, hm, hc⟩ => ⟨_, validatePaymentMemo_eq_ok.mpr ⟨ht, hm, hc, rfl⟩⟩
  case refine_3 =>
    intro onChain code code' r r' h h'
    have hm  := (validatePaymentMemo_eq_ok.mp h).2.1
    have hm' := (validatePaymentMemo_eq_ok.mp h').2.1
    exact List.append_cancel_left (Option.some.inj (hm.symm.trans hm'))

end Mergepay.RawMemo
