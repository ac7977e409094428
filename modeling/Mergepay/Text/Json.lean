import Mergepay.Text.JsString
import Mergepay.Text.Number
import Mergepay.Text.Unicode

-- The values of JSON, and the texts into which they are converted
namespace Text

-- Strings, with the characters that are escaped in them

-- A character, or half of a pair that stands alone
inductive CodePoint
  | scalar (c : Char)
  | surrogate (u : UInt16) (half : 0xD800 ≤ u ∧ u < 0xE000)
  deriving DecidableEq

namespace CodePoint

def units : CodePoint → JsString
  | .scalar c      => (Utf16.units c).map .ofNat
  | .surrogate u _ => [u]

def single (u : UInt16) : CodePoint :=
  if h : 0xD800 ≤ u ∧ u < 0xE000 then .surrogate u h else .scalar (.ofNat u.toNat)

def pair (u v : UInt16) : CodePoint :=
  .scalar <| .ofNat <| 0x10000 + (u.toNat - 0xD800) * 0x400 + (v.toNat - 0xDC00)

-- Characters that are escaped by a letter
def short : List (Char × Char) :=
  [('\x08', 'b'), ('\t', 't'), ('\n', 'n'), ('\x0c', 'f'), ('\r', 'r'), ('\x22', '\x22'), ('\\', '\\')]

def hex (n : Nat) : List Char :=
  [n / 0x1000 % 0x10, n / 0x100 % 0x10, n / 0x10 % 0x10, n % 0x10].map Nat.digitChar

def escapeChar (c : Char) : List Char :=
  match short.lookup c with
  | some d => ['\\', d]
  | none   => if c.toNat < 0x20 then '\\' :: 'u' :: hex c.toNat else [c]

def escape : CodePoint → List Char
  | .surrogate u _ => '\\' :: 'u' :: hex u.toNat
  | .scalar c      => escapeChar c

-- The first code point of a text, unless that is a quotation mark
def unescape : List Char → Option (CodePoint × List Char)
  | []                                     => none
  | '\\' :: 'u' :: a :: b :: c :: d :: tl => do
    let n ← Number.radix 16 [a, b, c, d]
    return (single (.ofNat n.floor.toNat), tl)
  | '\\' :: d :: tl                        => (short.find? (·.2 = d)).map fun p => (.scalar p.1, tl)
  | c :: tl                                => if c = '\x22' then none else some (.scalar c, tl)

end CodePoint

namespace JsString

def codePoints : JsString → List CodePoint
  | []          => []
  | [u]         => [.single u]
  | u :: v :: l => if IsPair u v then .pair u v :: codePoints l else .single u :: codePoints (v :: l)

def quote (s : JsString) : List Char :=
  '\x22' :: (codePoints s).flatMap CodePoint.escape ++ ['\x22']

end JsString

namespace CodePoint

theorem toNat_ofNat (h : n < 0xD800 ∨ 0xE000 ≤ n ∧ n < 0x110000) : (Char.ofNat n).toNat = n := by
  refine Utf8.toNat_ofNat ?_
  unfold Nat.isValidChar
  omega

theorem single_scalar {u : UInt16} (h : u.toNat < 0xD800 ∨ 0xE000 ≤ u.toNat) : single u = .scalar (.ofNat u.toNat) := by
  refine dif_neg fun hu => ?_
  simp only [UInt16.le_iff_toNat_le, UInt16.lt_iff_toNat_lt, UInt16.reduceToNat] at hu
  omega

theorem units_single (u : UInt16) : (single u).units = [u] := by
  by_cases h : 0xD800 ≤ u ∧ u < 0xE000
  case pos => rw [single, dif_pos h]; rfl
  case neg =>
    have hu : u.toNat < 0xD800 ∨ 0xE000 ≤ u.toNat := by
      simp only [UInt16.le_iff_toNat_le, UInt16.lt_iff_toNat_lt, UInt16.reduceToNat] at h
      omega
    have hlt := u.toNat_lt
    have hc := toNat_ofNat (n := u.toNat) (by omega)
    rw [single_scalar hu, units, Utf16.units, hc, if_pos hlt, List.map_singleton, UInt16.ofNat_toNat]

theorem units_pair (h : JsString.IsPair u v) : (pair u v).units = [u, v] := by
  simp only [JsString.IsPair, UInt16.le_iff_toNat_le, UInt16.lt_iff_toNat_lt, UInt16.reduceToNat] at h
  have hc := toNat_ofNat (n := 0x10000 + (u.toNat - 0xD800) * 0x400 + (v.toNat - 0xDC00)) (by omega)
  have h₁ : 0xD800 + (0x10000 + (u.toNat - 0xD800) * 0x400 + (v.toNat - 0xDC00) - 0x10000) / 0x400 = u.toNat := by omega
  have h₂ : 0xDC00 + (0x10000 + (u.toNat - 0xD800) * 0x400 + (v.toNat - 0xDC00) - 0x10000) % 0x400 = v.toNat := by omega
  rw [pair, units, Utf16.units, hc, if_neg (by omega), h₁, h₂]
  simp

theorem radix_hex (h : n < 0x10000) : Number.radix 16 (hex n) = some (n : Rat) := by
  have hd : ∀ k < 16, (Number.digit (Nat.digitChar k)).filter (· < 16) = some k := by decide
  have hm (k : Nat) : (Number.digit (Nat.digitChar (k % 16))).filter (· < 16) = some (k % 16) :=
    hd _ (Nat.mod_lt _ (by decide))
  simp only [Number.radix, hex, List.map_cons, List.map_nil, reduceCtorEq, if_false, List.mapM_cons, List.mapM_nil, hm,
    Option.bind_eq_bind, Option.bind_some, Option.pure_def, List.foldl_cons, List.foldl_nil]
  congr 2
  omega

theorem unescape_hex (h : n < 0x10000) (tl : List Char) :
    unescape ('\\' :: 'u' :: hex n ++ tl) = some (single (.ofNat n), tl) := by
  have hr := radix_hex h
  simp only [hex, List.map_cons, List.map_nil] at hr ⊢
  simp only [List.cons_append, List.nil_append, unescape, hr, Option.bind_eq_bind, Option.bind_some]
  have hf : (n : Rat).floor.toNat = n := by
    rw [← Int.cast_natCast, Rat.floor_intCast, Int.toNat_natCast]
  rw [hf]
  rfl

theorem unescape_escapeChar (c : Char) (tl : List Char) : unescape (escapeChar c ++ tl) = some (.scalar c, tl) := by
  unfold escapeChar
  cases hd : short.lookup c with
  | some d =>
    have ⟨l₁, l₂, hl, _⟩ := List.lookup_eq_some_iff.mp hd
    have hm : (c, d) ∈ short := by simp [hl]
    simp only [short, List.mem_cons, List.not_mem_nil, or_false, Prod.mk.injEq] at hm
    rcases hm with ⟨rfl, rfl⟩ | ⟨rfl, rfl⟩ | ⟨rfl, rfl⟩ | ⟨rfl, rfl⟩ | ⟨rfl, rfl⟩ | ⟨rfl, rfl⟩ | ⟨rfl, rfl⟩
    all_goals rfl
  | none =>
    have hne : ∀ p ∈ short, p.1 ≠ c := fun p hp he => by
      have := List.lookup_eq_none_iff.mp hd p hp
      simp [he] at this
    dsimp only
    split
    case isTrue hc =>
      have hs : single (.ofNat c.toNat) = .scalar c := by
        have hn : (UInt16.ofNat c.toNat).toNat = c.toNat := UInt16.toNat_ofNat_of_lt' (by
          change _ < 65536
          omega)
        rw [single_scalar (by omega), hn, Char.ofNat_toNat]
      exact (unescape_hex (by omega) tl).trans (by rw [hs])
    case isFalse hc =>
      have h₁ : c ≠ '\\' := fun he => hne ('\\', '\\') (by decide) he.symm
      have h₂ : c ≠ '\x22' := fun he => hne ('\x22', '\x22') (by decide) he.symm
      rw [List.singleton_append, unescape, if_neg h₂]
      · exact fun _ _ _ _ _ he _ => h₁ he
      · exact fun _ _ he _ => h₁ he

theorem unescape_escape (p : CodePoint) (tl : List Char) : unescape (p.escape ++ tl) = some (p, tl) := by
  cases p with
  | surrogate u half =>
    have hs : single (.ofNat u.toNat) = .surrogate u half := by
      rw [UInt16.ofNat_toNat]
      exact dif_pos half
    exact (unescape_hex u.toNat_lt tl).trans (by rw [hs])
  | scalar c => exact unescape_escapeChar c tl

end CodePoint

namespace JsString

theorem flatMap_units (s : JsString) : (codePoints s).flatMap CodePoint.units = s := by
  fun_induction codePoints s with
  | case1             => rfl
  | case2 u           => exact (List.flatMap_singleton ..).trans (CodePoint.units_single u)
  | case3 u v l hp hi => rw [List.flatMap_cons, CodePoint.units_pair hp, hi]; rfl
  | case4 u v l hp hi => rw [List.flatMap_cons, CodePoint.units_single, hi]; rfl

theorem escapes_inj {ps qs : List CodePoint} {x y : List Char}
    (h : ps.flatMap CodePoint.escape ++ '\x22' :: x = qs.flatMap CodePoint.escape ++ '\x22' :: y) : ps = qs ∧ x = y := by
  have hq (l : List Char) : CodePoint.unescape ('\x22' :: l) = none := rfl
  induction ps generalizing qs with
  | nil =>
    cases qs with
    | nil       => exact ⟨rfl, (List.cons.inj h).2⟩
    | cons q qs =>
      have he := congrArg CodePoint.unescape h
      rw [List.flatMap_nil, List.nil_append, hq, List.flatMap_cons, List.append_assoc, CodePoint.unescape_escape] at he
      contradiction
  | cons p ps hi =>
    have he := congrArg CodePoint.unescape h
    rw [List.flatMap_cons, List.append_assoc, CodePoint.unescape_escape] at he
    cases qs with
    | nil       => contradiction
    | cons q qs =>
      rw [List.flatMap_cons, List.append_assoc, CodePoint.unescape_escape, Option.some.injEq, Prod.mk.injEq] at he
      have ⟨hs, hx⟩ := hi he.2
      exact ⟨by rw [he.1, hs], hx⟩

-- A quoted string ends where its quotation is closed.
theorem quote_inj {s t : JsString} {x y : List Char} (h : quote s ++ x = quote t ++ y) : s = t ∧ x = y := by
  simp only [quote, List.cons_append, List.append_assoc, List.nil_append, List.cons.injEq, true_and] at h
  have ⟨hp, hx⟩ := escapes_inj h
  exact ⟨by rw [← flatMap_units s, hp, flatMap_units], hx⟩

end JsString

-- Values and their texts

-- The properties of an object are in the order in which they are visited.
inductive Json
  | null
  | bool (b : Bool)
  | number (x : Number.Double)
  | string (s : JsString)
  | array (items : List Json)
  | object (properties : List (JsString × Json))

namespace Json

@[elab_as_elim]
theorem induct {P : Json → Prop} (null : P .null) (bool : ∀ b, P (.bool b)) (number : ∀ x, P (.number x))
    (string : ∀ s, P (.string s)) (array : ∀ l, (∀ v ∈ l, P v) → P (.array l))
    (object : ∀ l, (∀ p ∈ l, P p.2) → P (.object l)) (v : Json) : P v :=
  @Json.rec P (fun l => ∀ v ∈ l, P v) (fun l => ∀ p ∈ l, P p.2) (fun p => P p.2)
    null bool number string array object (by simp) (by simp_all) (by simp) (by simp_all) (by simp) v

mutual

def stringify : Json → List Char
  | .null         => "null".toList
  | .bool true    => "true".toList
  | .bool false   => "false".toList
  | .number x     => x.toText
  | .string s     => s.quote
  | .array items  => '[' :: [','].intercalate (stringifyItems items) ++ [']']
  | .object props => '\x7b' :: [','].intercalate (stringifyProperties props) ++ ['\x7d']

def stringifyItems : List Json → List (List Char)
  | []      => []
  | v :: tl => stringify v :: stringifyItems tl

def stringifyProperties : List (JsString × Json) → List (List Char)
  | []           => []
  | (k, v) :: tl => (k.quote ++ ':' :: stringify v) :: stringifyProperties tl

end

def stringifyProperty (p : JsString × Json) : List Char :=
  p.1.quote ++ ':' :: stringify p.2

theorem stringifyItems_eq : ∀ l, stringifyItems l = l.map stringify
  | []     => rfl
  | _ :: l => congrArg _ (stringifyItems_eq l)

theorem stringifyProperties_eq : ∀ l, stringifyProperties l = l.map stringifyProperty
  | []     => rfl
  | _ :: l => congrArg _ (stringifyProperties_eq l)

-- The first character of a text shows what kind of value follows.
def kind : Json → Nat
  | .null       => 0
  | .bool true  => 1
  | .bool false => 2
  | .string _   => 3
  | .array _    => 4
  | .object _   => 5
  | .number _   => 6

def kindOf (c : Char) : Nat :=
  ['n', 't', 'f', '\x22', '[', '\x7b'].idxOf c

theorem stringify_head (v : Json) : ∃ c tl, stringify v = c :: tl ∧ c ≠ ']' ∧ kindOf c = v.kind := by
  cases v with
  | null       => exact ⟨_, _, rfl, by decide, rfl⟩
  | bool b     => cases b <;> exact ⟨_, _, rfl, by decide, rfl⟩
  | string s   => exact ⟨_, _, rfl, by decide, rfl⟩
  | array l    => exact ⟨_, _, rfl, by decide, rfl⟩
  | object l   => exact ⟨_, _, rfl, by decide, rfl⟩
  | number x   =>
    have ⟨c, tl, hx⟩ := List.exists_cons_of_ne_nil (Number.toText_ne_nil x)
    have hc : Number.IsNotation c := Number.isNotation_toText x c (hx ▸ List.mem_cons_self)
    have hn : c ∉ ['n', 't', 'f', '\x22', '[', '\x7b'] := by
      intro hm
      have : ∀ d ∈ ['n', 't', 'f', '\x22', '[', '\x7b'], ¬Number.IsNotation d :=
        List.forall_iff_forall_mem.mp (by decide)
      exact this c hm hc
    refine ⟨c, tl, hx, ?_, List.idxOf_of_notMem hn⟩
    rintro rfl
    exact absurd hc (by decide)

theorem kind_eq {v w : Json} (h : stringify v ++ s = stringify w ++ t) : v.kind = w.kind := by
  have ⟨c, tl, hv, _, hc⟩ := stringify_head v
  have ⟨d, tl', hw, _, hd⟩ := stringify_head w
  rw [hv, hw, List.cons_append, List.cons_append, List.cons.injEq] at h
  rw [← hc, ← hd, h.1]

-- The text that follows does not continue a number.
def Ends (l : List Char) : Prop :=
  ∀ c ∈ l.head?, ¬Number.IsNotation c

theorem takeWhile_toText (x : Number.Double) (h : Ends s) : (x.toText ++ s).takeWhile (Number.IsNotation ·) = x.toText := by
  rw [List.takeWhile_append_of_pos fun c hc => decide_eq_true (Number.isNotation_toText x c hc)]
  cases s with
  | nil      => simp
  | cons c s => simp [h c rfl]

theorem toText_inj {x y : Number.Double} (hs : Ends s) (ht : Ends t) (h : x.toText ++ s = y.toText ++ t) :
    x = y ∧ s = t := by
  have he : x.toText = y.toText := by rw [← takeWhile_toText x hs, h, takeWhile_toText y ht]
  exact ⟨Number.toText_injective he, List.append_cancel_left (he ▸ h)⟩

section List

variable {f : α → List Char} {close : Char}

-- What follows an item in front of others
def following (f : α → List Char) (close : Char) (l : List α) (s : List Char) : List Char :=
  if l = [] then close :: s else ',' :: ([','].intercalate (l.map f) ++ close :: s)

theorem intercalate_cons (a : α) (l : List α) (s : List Char) :
    [','].intercalate ((a :: l).map f) ++ close :: s = f a ++ following f close l s := by
  cases l with
  | nil      => simp [following]
  | cons b l => simp [following]

theorem ends_following {l : List α} (hn : ¬Number.IsNotation close) : Ends (following f close l s) := by
  unfold following
  split
  case isTrue  => exact fun c hc => Option.some.inj hc ▸ hn
  case isFalse => exact fun c hc => Option.some.inj hc ▸ by decide

-- Texts of a list are separated, if each of them ends where its value does.
theorem intercalate_inj (hc : close ≠ ',') (hn : ¬Number.IsNotation close) (hf : ∀ a, ∃ c tl, f a = c :: tl ∧ c ≠ close)
    {l m : List α} (hi : ∀ a ∈ l, ∀ {b s t}, Ends s → Ends t → f a ++ s = f b ++ t → a = b ∧ s = t)
    (h : [','].intercalate (l.map f) ++ close :: s = [','].intercalate (m.map f) ++ close :: t) : l = m ∧ s = t := by
  have hne a (l : List α) (u v : List Char) : close :: u ≠ f a ++ v := by
    have ⟨c, tl, he, hc⟩ := hf a
    rw [he]
    exact fun h => hc (List.cons.inj h).1.symm
  induction l generalizing m with
  | nil =>
    cases m with
    | nil      => exact ⟨rfl, (List.cons.inj h).2⟩
    | cons b m =>
      rw [intercalate_cons] at h
      exact absurd h (hne b m _ _)
  | cons a l ih =>
    cases m with
    | nil      =>
      rw [intercalate_cons] at h
      exact absurd h.symm (hne a l _ _)
    | cons b m =>
      rw [intercalate_cons, intercalate_cons] at h
      have ⟨hab, h'⟩ := hi a List.mem_cons_self (ends_following hn) (ends_following hn) h
      subst hab
      unfold following at h'
      split at h' <;> split at h'
      case isTrue.isTrue hl hm   => exact ⟨by rw [hl, hm], (List.cons.inj h').2⟩
      case isTrue.isFalse        => exact absurd (List.cons.inj h').1 hc
      case isFalse.isTrue        => exact absurd (List.cons.inj h').1.symm hc
      case isFalse.isFalse hl hm =>
        have ⟨hl, hs⟩ := ih (fun c hc => hi c (List.mem_cons_of_mem _ hc)) (List.cons.inj h').2
        exact ⟨by rw [hl], hs⟩

end List

theorem stringifyProperty_inj {p q : JsString × Json}
    (hi : ∀ {w s t}, Ends s → Ends t → stringify p.2 ++ s = stringify w ++ t → p.2 = w ∧ s = t) (hs : Ends s)
    (ht : Ends t) (h : stringifyProperty p ++ s = stringifyProperty q ++ t) : p = q ∧ s = t := by
  simp only [stringifyProperty, List.append_assoc, List.cons_append] at h
  have ⟨hk, hv⟩ := JsString.quote_inj h
  have ⟨hv, hst⟩ := hi hs ht (List.cons.inj hv).2
  exact ⟨Prod.ext hk hv, hst⟩

-- A text is read in one way only.
theorem stringify_inj {v w : Json} (hs : Ends s) (ht : Ends t) (h : stringify v ++ s = stringify w ++ t) :
    v = w ∧ s = t := by
  have hk := kind_eq h
  induction v using induct generalizing w s t with
  | null =>
    cases w with
    | null   => exact ⟨rfl, List.append_cancel_left h⟩
    | bool b => cases b <;> simp [kind] at hk
    | _      => simp [kind] at hk
  | bool b =>
    cases w with
    | bool c =>
      cases b <;> cases c
      case false.false => exact ⟨rfl, List.append_cancel_left h⟩
      case true.true   => exact ⟨rfl, List.append_cancel_left h⟩
      all_goals simp [kind] at hk
    | _ => cases b <;> simp [kind] at hk
  | number x =>
    cases w with
    | number y =>
      have ⟨he, hst⟩ := toText_inj hs ht h
      exact ⟨congrArg _ he, hst⟩
    | bool b => cases b <;> simp [kind] at hk
    | _      => simp [kind] at hk
  | string s =>
    cases w with
    | string t =>
      have ⟨he, hst⟩ := JsString.quote_inj h
      exact ⟨congrArg _ he, hst⟩
    | bool b => cases b <;> simp [kind] at hk
    | _      => simp [kind] at hk
  | array l hi =>
    cases w with
    | array m =>
      have hf v : ∃ c tl, stringify v = c :: tl ∧ c ≠ ']' := by
        have ⟨c, tl, hv, hc, _⟩ := stringify_head v
        exact ⟨c, tl, hv, hc⟩
      simp only [stringify, stringifyItems_eq, List.cons_append, List.append_assoc, List.nil_append, List.cons.injEq,
        true_and] at h
      have ⟨he, hst⟩ := intercalate_inj (by decide) (by decide) hf (fun v hv _ _ _ hs ht h => hi v hv hs ht h (kind_eq h)) h
      exact ⟨congrArg _ he, hst⟩
    | bool b => cases b <;> simp [kind] at hk
    | _      => simp [kind] at hk
  | object l hi =>
    cases w with
    | object m =>
      simp only [stringify, stringifyProperties_eq, List.cons_append, List.append_assoc, List.nil_append,
        List.cons.injEq, true_and] at h
      have ⟨he, hst⟩ := intercalate_inj (by decide) (by decide) (fun p => ⟨_, _, rfl, by decide⟩)
        (fun p hp _ _ _ hs ht h => stringifyProperty_inj (fun hs ht h => hi p hp hs ht h (kind_eq h)) hs ht h) h
      exact ⟨congrArg _ he, hst⟩
    | bool b => cases b <;> simp [kind] at hk
    | _      => simp [kind] at hk

end Json

end Text
