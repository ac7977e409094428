import Mathlib.Data.List.TakeWhile
import Mergepay.Text.JsString

-- The URL-safe variant of Base64, without padding
namespace Text.Base64

def alphabet : List Char :=
  "ABCDEFGHIJKLMNOPQRSTUVWXYZabcdefghijklmnopqrstuvwxyz0123456789-_".toList

def digit (n : Nat) : Char :=
  alphabet.getD n 'A'

-- Both variants of the alphabet are read.
def value (c : Char) : Option Nat :=
  if c = '+' then some 62
  else if c = '/' then some 63
  else alphabet.findIdx? (· = c)

def encode : List UInt8 → List Char
  | a :: b :: c :: tl =>
    digit (a.toNat / 4) :: digit (a.toNat % 4 * 16 + b.toNat / 16) ::
      digit (b.toNat % 16 * 4 + c.toNat / 64) :: digit (c.toNat % 64) :: encode tl
  | [a, b] =>
    [digit (a.toNat / 4), digit (a.toNat % 4 * 16 + b.toNat / 16), digit (b.toNat % 16 * 4)]
  | [a] => [digit (a.toNat / 4), digit (a.toNat % 4 * 16)]
  | []  => []

def bytes : List Nat → List UInt8
  | i :: j :: k :: l :: tl =>
    .ofNat (i * 4 + j / 16) :: .ofNat (j % 16 * 16 + k / 4) :: .ofNat (k % 4 * 64 + l) :: bytes tl
  | [i, j, k]  => [.ofNat (i * 4 + j / 16), .ofNat (j % 16 * 16 + k / 4)]
  | [i, j]     => [.ofNat (i * 4 + j / 16)]
  | [_] | []   => []

-- Only the lower byte of a unit counts.
def read (u : UInt16) : Char :=
  .ofNat (u.toNat % 0x100)

-- Padding ends the text. Other characters from outside of the alphabet are ignored, and so is an incomplete byte.
def decode (l : JsString) : List UInt8 :=
  bytes <| ((l.map read).takeWhile (· ≠ '=')).filterMap value

theorem value_digit (h : n < 64) : value (digit n) = some n := by
  have h : ∀ n < 64, value (digit n) = some n := by decide +kernel
  exact h n ‹_›

theorem ofNat_eq {a : UInt8} (h : n = a.toNat) : UInt8.ofNat n = a := by
  rw [h, UInt8.ofNat_toNat]

theorem digit_mem (h : n < 64) : digit n ∈ alphabet := by
  have h : ∀ n < 64, digit n ∈ alphabet := by decide +kernel
  exact h n ‹_›

theorem encode_mem (l : List UInt8) : ∀ c ∈ encode l, c ∈ alphabet := by
  fun_induction encode l with
  | case1 a b c tl ih =>
    have ha := a.toNat_lt
    have hb := b.toNat_lt
    have hc := c.toNat_lt
    simp only [List.forall_mem_cons]
    exact ⟨digit_mem (by omega), digit_mem (by omega), digit_mem (by omega), digit_mem (by omega), ih⟩
  | case2 a b =>
    have ha := a.toNat_lt
    have hb := b.toNat_lt
    simp only [List.forall_mem_cons]
    exact ⟨digit_mem (by omega), digit_mem (by omega), digit_mem (by omega), nofun⟩
  | case3 a =>
    have ha := a.toNat_lt
    simp only [List.forall_mem_cons]
    exact ⟨digit_mem (by omega), digit_mem (by omega), nofun⟩
  | case4 => nofun

-- The letters of the alphabet are read as they are.
theorem read_ofString {l : List Char} (h : ∀ c ∈ l, c ∈ alphabet) :
    ((JsString.ofString (.ofList l)).map read).takeWhile (· ≠ '=') = l := by
  have ha : ∀ c ∈ alphabet, c.toNat < 0x80 ∧ c ≠ '=' := List.forall_iff_forall_mem.mp (by decide)
  have hr : (JsString.ofString (.ofList l)).map read = l := by
    rw [JsString.ofString, String.toList_ofList, Utf16.encode_ascii fun c hc => (ha c (h c hc)).1, List.map_map,
      List.map_map]
    refine (List.map_congr_left fun c hc => ?_).trans (List.map_id l)
    have hc := (ha c (h c hc)).1
    have hn : (UInt16.ofNat c.toNat).toNat = c.toNat := UInt16.toNat_ofNat_of_lt' (hc.trans (by decide))
    rw [Function.comp_apply, Function.comp_apply, read, hn, Nat.mod_eq_of_lt (by omega), Char.ofNat_toNat]
    rfl
  rw [hr]
  exact List.takeWhile_eq_self_iff.mpr fun c hc => decide_eq_true (ha c (h c hc)).2

theorem bytes_encode (l : List UInt8) : bytes ((encode l).filterMap value) = l := by
  fun_induction encode l with
  | case1 a b c tl ih =>
    have ha := a.toNat_lt
    have hb := b.toNat_lt
    have hc := c.toNat_lt
    rw [List.filterMap_cons_some (value_digit (by omega)), List.filterMap_cons_some (value_digit (by omega)),
      List.filterMap_cons_some (value_digit (by omega)), List.filterMap_cons_some (value_digit (by omega)), bytes, ih,
      ofNat_eq (a := a) (by omega), ofNat_eq (a := b) (by omega), ofNat_eq (a := c) (by omega)]
  | case2 a b =>
    have ha := a.toNat_lt
    have hb := b.toNat_lt
    rw [List.filterMap_cons_some (value_digit (by omega)), List.filterMap_cons_some (value_digit (by omega)),
      List.filterMap_cons_some (value_digit (by omega)), List.filterMap_nil, bytes,
      ofNat_eq (a := a) (by omega), ofNat_eq (a := b) (by omega)]
  | case3 a =>
    have ha := a.toNat_lt
    rw [List.filterMap_cons_some (value_digit (by omega)), List.filterMap_cons_some (value_digit (by omega)),
      List.filterMap_nil, bytes, ofNat_eq (a := a) (by omega)]
  | case4 => rfl

theorem decode_encode (l : List UInt8) : decode (JsString.ofString (.ofList (encode l))) = l := by
  rw [decode, read_ofString (encode_mem l), bytes_encode]

theorem length_encode (l : List UInt8) : (encode l).length = (4 * l.length + 2) / 3 := by
  fun_induction encode l with
  | case1 a b c tl ih =>
    simp only [List.length_cons, ih]
    omega
  | case2 | case3 | case4 => simp

end Text.Base64
