import Mergepay.Text.Unicode

namespace Text

-- A string of JavaScript is any sequence of code units, also one that is not a text.
abbrev JsString := List UInt16

namespace JsString

def ofString (s : String) : JsString :=
  (Utf16.encode s.toList).map .ofNat

theorem ofString_append (s t : String) : ofString (s ++ t) = ofString s ++ ofString t := by
  simp [ofString, Utf16.encode]

theorem ofString_injective : Function.Injective ofString := by
  intro s t h
  have hl l : ((Utf16.encode l).map UInt16.ofNat).map (·.toNat) = Utf16.encode l := by
    rw [List.map_map]
    refine (List.map_congr_left fun u hu => ?_).trans (List.map_id _)
    exact UInt16.toNat_ofNat_of_lt' (Utf16.lt_of_mem_encode hu)
  have he := congrArg (Utf16.decode <| ·.map (·.toNat)) h
  simp only [ofString, hl, Utf16.decode_encode] at he
  exact String.ext he

def unitBytes (u : UInt16) : Nat :=
  if u < 0x80 then 1 else if u < 0x800 then 2 else 3

def IsPair (u v : UInt16) : Prop :=
  0xD800 ≤ u ∧ u < 0xDC00 ∧ 0xDC00 ≤ v ∧ v < 0xE000

instance : Decidable (IsPair u v) :=
  inferInstanceAs (Decidable (_ ∧ _))

-- The length in UTF-8, where half of a pair is encoded as the replacement character.
def byteLength : JsString → Nat
  | []          => 0
  | [u]         => unitBytes u
  | u :: v :: l => if IsPair u v then 4 + byteLength l else unitBytes u + byteLength (v :: l)

theorem byteLength_ascii {l : JsString} (h : ∀ u ∈ l, u < 0x80) : byteLength l = l.length := by
  fun_induction byteLength l with
  | case1     => rfl
  | case2 u   => simp [unitBytes, h u List.mem_cons_self]
  | case3 u v l hp =>
    have hu := h u List.mem_cons_self
    have hp := hp.1
    simp only [UInt16.lt_iff_toNat_lt, UInt16.le_iff_toNat_le, UInt16.reduceToNat] at hu hp
    omega
  | case4 u v l hp hi =>
    have ⟨hu, h⟩ := List.forall_mem_cons.mp h
    rw [hi h, unitBytes, if_pos hu, List.length_cons (a := u), Nat.add_comm]

end JsString

-- Classes of characters in regular expressions
namespace CharClass

-- Whitespace, as it is matched by `\s`
def isSpace (u : UInt16) : Bool :=
  0x09 ≤ u ∧ u ≤ 0x0D ∨ u = 0x20 ∨ u = 0xA0 ∨ u = 0x1680 ∨ 0x2000 ≤ u ∧ u ≤ 0x200A ∨ u = 0x2028 ∨ u = 0x2029 ∨
  u = 0x202F ∨ u = 0x205F ∨ u = 0x3000 ∨ u = 0xFEFF

def isSpecial (u : UInt16) : Bool :=
  u ∈ JsString.ofString "-[]\x7b\x7d()*+?.,\\^$|#" ∨ isSpace u

def escape (l : JsString) : JsString :=
  l.flatMap fun u => if isSpecial u then [0x5C, u] else [u]

-- The units of a class, with a mark on the dashes that are not escaped. Only special units are escaped here.
def atoms : JsString → List (UInt16 × Bool)
  | []          => []
  | [u]         => [(u, u = 0x2D)]
  | u :: v :: l => if u = 0x5C then (v, false) :: atoms l else (u, u = 0x2D) :: atoms (v :: l)

def ranges : List (UInt16 × Bool) → List (UInt16 × UInt16)
  | []                             => []
  | (u, _) :: (_, true) :: (v, _) :: l => (u, v) :: ranges l
  | (u, _) :: l                    => (u, u) :: ranges l

def covers (l : JsString) (u : UInt16) : Bool :=
  (ranges (atoms l)).any fun r => r.1 ≤ u ∧ u ≤ r.2

-- A class that starts with a caret is negated.
def contains (l : JsString) (u : UInt16) : Bool :=
  match l with
  | 0x5E :: l => !covers l u
  | l         => covers l u

variable {l : JsString} {u : UInt16}

theorem ne_of_not_special (h : ¬isSpecial u) : u ≠ 0x5C ∧ u ≠ 0x2D ∧ u ≠ 0x5E := by
  refine ⟨?_, ?_, ?_⟩
  all_goals
    rintro rfl
    exact h (by decide)

theorem escape_cons : escape (u :: l) = (if isSpecial u then [0x5C, u] else [u]) ++ escape l := by
  simp [escape]

theorem atoms_escape : atoms (escape l) = l.map (·, false) := by
  induction l
  case nil => rfl
  case cons u l hi =>
    rw [escape_cons, List.map_cons, ← hi]
    split
    case isTrue  => simp [atoms]
    case isFalse h =>
      have ⟨h₁, h₂, _⟩ := ne_of_not_special h
      cases escape l <;> simp [atoms, h₁, h₂]

theorem ranges_map : ranges (l.map (·, false)) = l.map fun u => (u, u) := by
  induction l
  case nil          => rfl
  case cons u l hi  => cases l <;> simp_all [ranges]

theorem covers_escape : covers (escape l) u = true ↔ u ∈ l := by
  simp only [covers, atoms_escape, ranges_map, List.any_eq_true, List.mem_map, decide_eq_true_eq]
  constructor
  case mp =>
    intro ⟨_, ⟨v, hv, he⟩, h₁, h₂⟩
    subst he
    exact UInt16.le_antisymm h₁ h₂ ▸ hv
  case mpr => exact fun h => ⟨_, ⟨u, h, rfl⟩, UInt16.le_refl u, UInt16.le_refl u⟩

-- A class of escaped units contains those and no others.
theorem contains_escape : contains (escape l) u = true ↔ u ∈ l := by
  have he l' : escape l ≠ 0x5E :: l' := by
    cases l with
    | nil      => exact nofun
    | cons v l =>
      rw [escape_cons]
      split
      case isTrue    => exact nofun
      case isFalse h => exact fun he => (ne_of_not_special h).2.2 (List.cons.inj he).1
  rw [contains, covers_escape]
  exact he

end CharClass

end Text
