/-!
# Base64

Bytes as text, four characters for three bytes. A decoder reads both alphabets and passes over every other character.
-/

namespace Lib.Base64

/-- The character for six bits. -/
def digit (n : Nat) : Char :=
  if n < 26 then Char.ofNat (n + 'A'.toNat)
  else if n < 52 then Char.ofNat (n - 26 + 'a'.toNat)
  else if n < 62 then Char.ofNat (n - 52 + '0'.toNat)
  else if n = 62 then '+'
  else '/'

def value (c : Char) : Option Nat :=
  if 'A' ≤ c ∧ c ≤ 'Z' then some (c.toNat - 'A'.toNat)
  else if 'a' ≤ c ∧ c ≤ 'z' then some (c.toNat - 'a'.toNat + 26)
  else if c.isDigit then some (c.toNat - '0'.toNat + 52)
  else if c = '+' ∨ c = '-' then some 62
  else if c = '/' ∨ c = '_' then some 63
  else none

def encodeBytes : List UInt8 → List Char
  | [] => []
  | [a] => [digit (a.toNat / 4), digit (a.toNat % 4 * 16), '=', '=']
  | [a, b] => [digit (a.toNat / 4), digit (a.toNat % 4 * 16 + b.toNat / 16), digit (b.toNat % 16 * 4), '=']
  | a :: b :: c :: l =>
      digit (a.toNat / 4) :: digit (a.toNat % 4 * 16 + b.toNat / 16) :: digit (b.toNat % 16 * 4 + c.toNat / 64) ::
        digit (c.toNat % 64) :: encodeBytes l

/-- The bytes of groups of six bits. Bits that do not fill a byte are dropped. -/
def join : List Nat → List UInt8
  | w :: x :: y :: z :: l =>
      .ofNat (w * 4 + x / 16) :: .ofNat (x % 16 * 16 + y / 4) :: .ofNat (y % 4 * 64 + z) :: join l
  | [w, x, y] => [.ofNat (w * 4 + x / 16), .ofNat (x % 16 * 16 + y / 4)]
  | [w, x] => [.ofNat (w * 4 + x / 16)]
  | _ => []

/-- `bytes.toString('base64')`. -/
def encode (bytes : List UInt8) : String := String.ofList (encodeBytes bytes)

/-- `Buffer.from(s, 'base64')`. -/
def decode (s : String) : List UInt8 := join (s.toList.filterMap value)

/-! ## The round trip -/

@[simp] theorem value_digit {n : Nat} (h : n < 64) : value (digit n) = some n := by
  have all : ∀ n : Fin 64, value (digit n) = some n.val := by decide
  exact all ⟨n, h⟩

@[simp] theorem value_pad : value '=' = none := by decide

theorem byte_eq {a : UInt8} {n : Nat} (h : n = a.toNat) : UInt8.ofNat n = a := by
  rw [h, UInt8.ofNat_toNat]

theorem join_encodeBytes (bytes : List UInt8) : join ((encodeBytes bytes).filterMap value) = bytes := by
  fun_induction encodeBytes bytes with
  | case1 => rfl
  | case2 a =>
      have ha := a.toNat_lt
      rw [List.filterMap_cons_some (value_digit (by omega)), List.filterMap_cons_some (value_digit (by omega))]
      simp only [List.filterMap_cons, value_pad, List.filterMap_nil, join]
      rw [byte_eq (a := a) (by omega)]
  | case3 a b =>
      have ha := a.toNat_lt
      have hb := b.toNat_lt
      rw [List.filterMap_cons_some (value_digit (by omega)), List.filterMap_cons_some (value_digit (by omega)),
        List.filterMap_cons_some (value_digit (by omega))]
      simp only [List.filterMap_cons, value_pad, List.filterMap_nil, join]
      rw [byte_eq (a := a) (by omega), byte_eq (a := b) (by omega)]
  | case4 a b c l ih =>
      have ha := a.toNat_lt
      have hb := b.toNat_lt
      have hc := c.toNat_lt
      rw [List.filterMap_cons_some (value_digit (by omega)), List.filterMap_cons_some (value_digit (by omega)),
        List.filterMap_cons_some (value_digit (by omega)), List.filterMap_cons_some (value_digit (by omega)), join, ih,
        byte_eq (a := a) (by omega), byte_eq (a := b) (by omega), byte_eq (a := c) (by omega)]

@[simp] theorem decode_encode (bytes : List UInt8) : decode (encode bytes) = bytes := by
  rw [decode, encode, String.toList_ofList, join_encodeBytes]

end Lib.Base64
