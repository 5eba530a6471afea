import Mathlib.Data.List.Basic

/-!
# Query strings

Names and values as `application/x-www-form-urlencoded`, and the parser of a query string.
-/

namespace Lib.FormUrlencoded

/-! ## UTF-8 -/

def utf8 (s : String) : List UInt8 := s.toUTF8.data.toList

def ofUtf8 (bytes : List UInt8) : Option String := String.fromUTF8? ⟨bytes.toArray⟩

@[simp] theorem ofUtf8_utf8 (s : String) : ofUtf8 (utf8 s) = some s := by
  have h : (⟨(utf8 s).toArray⟩ : ByteArray) = s.toByteArray := by simp [utf8]
  rw [ofUtf8, h, String.fromUTF8?, dif_pos s.isValidUTF8]
  rfl

/-! ## Bytes -/

/-- The characters that stay as they are. -/
def isUnescaped (c : Char) : Bool := c.isAlphanum || ['*', '-', '.', '_'].contains c

def upperHex (n : Nat) : Char := (Nat.digitChar n).toUpper

def encodeByte (b : UInt8) : List Char :=
  if b = 0x20 then ['+']
  else if isUnescaped (Char.ofNat b.toNat) then [Char.ofNat b.toNat]
  else ['%', upperHex (b.toNat / 16), upperHex (b.toNat % 16)]

def encodeBytes (bytes : List UInt8) : List Char := bytes.flatMap encodeByte

def hexValue (c : Char) : Option Nat :=
  if c.isDigit then some (c.toNat - '0'.toNat)
  else if 'A' ≤ c ∧ c ≤ 'F' then some (c.toNat - 'A'.toNat + 10)
  else if 'a' ≤ c ∧ c ≤ 'f' then some (c.toNat - 'a'.toNat + 10)
  else none

/-- A `%` without two hexadecimal digits stands for itself. -/
def decodeBytes : List Char → List UInt8
  | [] => []
  | '+' :: l => 0x20 :: decodeBytes l
  | '%' :: a :: b :: l =>
      match hexValue a, hexValue b with
      | some x, some y => UInt8.ofNat (16 * x + y) :: decodeBytes l
      | _, _ => String.utf8EncodeChar '%' ++ decodeBytes (a :: b :: l)
  | c :: l => String.utf8EncodeChar c ++ decodeBytes l

theorem forall_byte {p : UInt8 → Prop} (h : ∀ n : Fin 256, p (.ofFin n)) (b : UInt8) : p b := h b.toFin

theorem hexValue_upperHex : ∀ n < 16, hexValue (upperHex n) = some n := by decide

theorem unescaped_byte : ∀ b : UInt8, isUnescaped (Char.ofNat b.toNat) = true →
    String.utf8EncodeChar (Char.ofNat b.toNat) = [b] ∧ Char.ofNat b.toNat ≠ '+' ∧ Char.ofNat b.toNat ≠ '%' :=
  forall_byte (by decide +kernel)

theorem encodeByte_separators : ∀ b : UInt8, '&' ∉ encodeByte b ∧ '=' ∉ encodeByte b :=
  forall_byte (by decide +kernel)

theorem decodeBytes_cons {c : Char} (l : List Char) (hplus : c ≠ '+') (hpercent : c ≠ '%') :
    decodeBytes (c :: l) = String.utf8EncodeChar c ++ decodeBytes l := by
  rw [decodeBytes]
  · exact hplus
  · exact fun a b l' hc _ => hpercent hc

theorem decodeBytes_hex (b : UInt8) (l : List Char) :
    decodeBytes ('%' :: upperHex (b.toNat / 16) :: upperHex (b.toNat % 16) :: l) = b :: decodeBytes l := by
  have hb := b.toNat_lt
  have h₁ := hexValue_upperHex (b.toNat / 16) (by omega)
  have h₂ := hexValue_upperHex (b.toNat % 16) (by omega)
  simp only [decodeBytes, h₁, h₂]
  rw [show 16 * (b.toNat / 16) + b.toNat % 16 = b.toNat by omega, UInt8.ofNat_toNat]

theorem decodeBytes_encodeByte (b : UInt8) (l : List Char) : decodeBytes (encodeByte b ++ l) = b :: decodeBytes l := by
  unfold encodeByte
  split
  · rename_i hb
    rw [hb]
    rfl
  split
  · rename_i hu
    obtain ⟨he, hplus, hpercent⟩ := unescaped_byte b hu
    rw [List.singleton_append, decodeBytes_cons l hplus hpercent, he, List.singleton_append]
  · exact decodeBytes_hex b l

theorem decodeBytes_encodeBytes (bytes : List UInt8) : decodeBytes (encodeBytes bytes) = bytes := by
  induction bytes with
  | nil => rfl
  | cons b bytes ih =>
      rw [encodeBytes, List.flatMap_cons, decodeBytes_encodeByte]
      exact congrArg _ ih

theorem encodeBytes_separators (bytes : List UInt8) : '&' ∉ encodeBytes bytes ∧ '=' ∉ encodeBytes bytes := by
  constructor
  · intro h
    obtain ⟨b, _, hb⟩ := List.mem_flatMap.mp h
    exact (encodeByte_separators b).1 hb
  · intro h
    obtain ⟨b, _, hb⟩ := List.mem_flatMap.mp h
    exact (encodeByte_separators b).2 hb

/-! ## Pairs -/

def encode (s : String) : List Char := encodeBytes (utf8 s)

def decode (l : List Char) : Option String := ofUtf8 (decodeBytes l)

@[simp] theorem decode_encode (s : String) : decode (encode s) = some s := by
  rw [decode, encode, decodeBytes_encodeBytes, ofUtf8_utf8]

def serializePair (p : String × String) : List Char := encode p.1 ++ '=' :: encode p.2

def serialize (pairs : List (String × String)) : List Char := ['&'].intercalate (pairs.map serializePair)

/-- The name ends at the first `=`. There is no pair in an empty part. -/
def parsePair (l : List Char) : Option (String × String) := do
  guard (l ≠ [])
  return (← decode (l.takeWhile (· ≠ '=')), ← decode ((l.dropWhile (· ≠ '=')).drop 1))

def parse (l : List Char) : List (String × String) := (l.splitOn '&').filterMap parsePair

theorem parsePair_serializePair (p : String × String) : parsePair (serializePair p) = some p := by
  have hne : ∀ c ∈ encode p.1, (decide (c ≠ '=')) = true := by
    intro c hc
    exact decide_eq_true fun he => (encodeBytes_separators _).2 (he ▸ hc)
  have htake : (serializePair p).takeWhile (· ≠ '=') = encode p.1 := by
    rw [serializePair, List.takeWhile_append_of_pos hne]
    simp
  have hdrop : (serializePair p).dropWhile (· ≠ '=') = '=' :: encode p.2 := by
    rw [serializePair, List.dropWhile_append_of_pos hne]
    simp
  have hnil : serializePair p ≠ [] := by simp [serializePair]
  rw [parsePair, htake, hdrop]
  simp [guard, hnil]

theorem serializePair_separator (p : String × String) : '&' ∉ serializePair p := by
  intro h
  rcases List.mem_append.mp h with h | h
  · exact (encodeBytes_separators _).1 h
  · rcases List.mem_cons.mp h with h | h
    · cases h
    · exact (encodeBytes_separators _).1 h

/-- Parsing gives the pairs back, whatever their names and values are. -/
theorem parse_serialize (pairs : List (String × String)) : parse (serialize pairs) = pairs := by
  cases pairs with
  | nil => rfl
  | cons p pairs =>
      rw [parse, serialize, List.splitOn_intercalate _ _ (by simp)]
      · rw [List.filterMap_map, show parsePair ∘ serializePair = some from funext parsePair_serializePair,
          List.filterMap_some]
      · intro l hl
        obtain ⟨p, _, rfl⟩ := List.mem_map.mp hl
        exact serializePair_separator p

end Lib.FormUrlencoded
