import CoachingCalendar.Lib.Base64
import CoachingCalendar.Lib.FormUrlencoded
import CoachingCalendar.Store.Platform

/-!
# Secrets in the database

`crypto.util.ts`. The cipher of `node:crypto` is a parameter, the layout of a payload is not: the initialization vector,
the tag and the ciphertext, in base64.
-/

namespace CoachingCalendar
open Lib
open Lib.FormUrlencoded (utf8 ofUtf8 ofUtf8_utf8)

abbrev Bytes := List UInt8

/-- AES-256-GCM, and what `toString('utf-8')` makes of bytes that are no text. -/
structure NodeCrypto where
  /-- `createCipheriv(key, iv)` with `update`, `final` and `getAuthTag`: the ciphertext and the tag. There is no result
  when it throws. -/
  cipher : Bytes → Bytes → Bytes → Option (Bytes × Bytes)
  /-- `createDecipheriv(key, iv)` with `setAuthTag`, `update` and `final`. -/
  decipher : Bytes → Bytes → Bytes → Bytes → Option Bytes
  replaced : Bytes → String

/-- The cipher works with the key: it seals under every vector, and a full tag opens exactly what was sealed. -/
structure NodeCrypto.Accepts (C : NodeCrypto) (key : Bytes) : Prop where
  seals : ∀ iv plain, iv.length = 12 → ∃ encrypted tag, C.cipher key iv plain = some (encrypted, tag)
  tag : ∀ iv plain encrypted tag, C.cipher key iv plain = some (encrypted, tag) → tag.length = 16
  opens : ∀ iv tag encrypted plain, iv.length = 12 → tag.length = 16 →
    (C.decipher key iv tag encrypted = some plain ↔ C.cipher key iv plain = some (encrypted, tag))

def IV_LENGTH : Nat := 12
def TAG_LENGTH : Nat := 16

variable (C : NodeCrypto)

def sealed (iv tag encrypted : Bytes) : Bytes := iv ++ tag ++ encrypted

def encryptBytes (plain key iv : Bytes) : Option Bytes :=
  (C.cipher key iv plain).map fun (encrypted, tag) => sealed iv tag encrypted

/-- The bytes that a payload stands for. -/
def decryptBytes (raw key : Bytes) : Option Bytes :=
  C.decipher key (raw.take IV_LENGTH) ((raw.drop IV_LENGTH).take TAG_LENGTH) (raw.drop (IV_LENGTH + TAG_LENGTH))

/-- `encrypt`, with the vector that `randomBytes` drew. -/
def encrypt (plainText base64Key : String) (iv : Bytes) : Except Failure String :=
  match encryptBytes C (utf8 plainText) (Base64.decode base64Key) iv with
  | none => throw (.other "createCipheriv")
  | some bytes => return Base64.encode bytes

def NodeCrypto.toText (bytes : Bytes) : String := (ofUtf8 bytes).getD (C.replaced bytes)

def decrypt (payload base64Key : String) : Except Failure String :=
  match decryptBytes C (Base64.decode payload) (Base64.decode base64Key) with
  | none => throw (.other "createDecipheriv")
  | some bytes => return C.toText bytes

/-! ## The layout -/

section Layout

variable {iv tag encrypted : Bytes} (hi : iv.length = IV_LENGTH) (ht : tag.length = TAG_LENGTH)

include hi in
theorem take_sealed : (sealed iv tag encrypted).take IV_LENGTH = iv := by
  rw [sealed, List.append_assoc, ← hi, List.take_left]

include hi ht in
theorem tag_sealed : ((sealed iv tag encrypted).drop IV_LENGTH).take TAG_LENGTH = tag := by
  rw [sealed, List.append_assoc, ← hi, List.drop_left, ← ht, List.take_left]

include hi ht in
theorem drop_sealed : (sealed iv tag encrypted).drop (IV_LENGTH + TAG_LENGTH) = encrypted := by
  rw [sealed, ← hi, ← ht, ← List.length_append, List.drop_left]

theorem sealed_parts {raw : Bytes} :
    sealed (raw.take IV_LENGTH) ((raw.drop IV_LENGTH).take TAG_LENGTH) (raw.drop (IV_LENGTH + TAG_LENGTH)) = raw := by
  rw [sealed, List.append_assoc, ← List.drop_drop, List.take_append_drop, List.take_append_drop]

end Layout

variable {C} {key : Bytes}

/-- What is opened is exactly what was sealed under some vector. -/
theorem decryptBytes_iff (h : C.Accepts key) {raw plain : Bytes} (hlen : IV_LENGTH + TAG_LENGTH ≤ raw.length) :
    decryptBytes C raw key = some plain ↔
      ∃ iv, iv.length = IV_LENGTH ∧ encryptBytes C plain key iv = some raw := by
  have hiv : (raw.take IV_LENGTH).length = IV_LENGTH := by
    rw [List.length_take]
    omega
  have htag : ((raw.drop IV_LENGTH).take TAG_LENGTH).length = TAG_LENGTH := by
    rw [List.length_take, List.length_drop]
    omega
  rw [decryptBytes, h.opens _ _ _ _ hiv htag]
  constructor
  · intro hs
    exact ⟨_, hiv, by rw [encryptBytes, hs]; exact congrArg some sealed_parts⟩
  · rintro ⟨iv, hi, he⟩
    obtain ⟨⟨encrypted, tag⟩, hs, rfl⟩ := Option.map_eq_some_iff.mp he
    have ht := h.tag _ _ _ _ hs
    rwa [take_sealed hi, tag_sealed hi ht, drop_sealed hi ht]

/-- A payload reads back as the text it was made from. -/
theorem decrypt_encrypt {base64Key plainText : String} (h : C.Accepts (Base64.decode base64Key)) {iv : Bytes}
    (hi : iv.length = IV_LENGTH) : ∃ payload, encrypt C plainText base64Key iv = .ok payload ∧
      decrypt C payload base64Key = .ok plainText := by
  obtain ⟨encrypted, tag, hs⟩ := h.seals iv (utf8 plainText) hi
  have he : encryptBytes C (utf8 plainText) (Base64.decode base64Key) iv = some (sealed iv tag encrypted) := by
    rw [encryptBytes, hs, Option.map_some]
  have hlen : IV_LENGTH + TAG_LENGTH ≤ (sealed iv tag encrypted).length := by
    rw [sealed, List.length_append, List.length_append, hi, h.tag _ _ _ _ hs]
    exact Nat.le_add_right ..
  refine ⟨Base64.encode (sealed iv tag encrypted), by rw [encrypt, he]; rfl, ?_⟩
  rw [decrypt, Base64.decode_encode, (decryptBytes_iff h hlen).mpr ⟨iv, hi, he⟩]
  exact congrArg Except.ok (by rw [NodeCrypto.toText, ofUtf8_utf8, Option.getD_some])

/-! ## A cipher to run examples on -/

/-- A key stream over bytes. -/
def mask : Bytes → Bytes → Bytes
  | b :: bytes, k :: stream => (b ^^^ k) :: mask bytes stream
  | bytes, _ => bytes

@[simp] theorem mask_mask (bytes stream : Bytes) : mask (mask bytes stream) stream = bytes := by
  fun_induction mask bytes stream with
  | case1 b bytes k stream ih => rw [mask, ih, UInt8.xor_assoc, UInt8.xor_self, UInt8.xor_zero]
  | case2 bytes stream h =>
      cases bytes with
      | nil => rfl
      | cons b bytes =>
          cases stream with
          | nil => rfl
          | cons k stream => exact (h b bytes k stream rfl rfl).elim

namespace NodeCrypto

def sampleIv : Bytes := [100, 101, 102, 103, 104, 105, 106, 107, 108, 109, 110, 111]

/-- The key stream of AES-256-GCM under the key of the bytes 0 to 31 and the sample vector. -/
def sampleStream : Bytes := [72, 27, 222, 102, 121, 233, 86]

/-- The tag of `refresh` under them. -/
def sampleTag : Bytes := [170, 196, 61, 101, 73, 25, 97, 136, 156, 148, 29, 10, 253, 235, 164, 139]

/-- It makes of `refresh` what AES-256-GCM makes of it under the sample key and vector, and takes no key that has not 32
bytes. -/
def sample : NodeCrypto where
  cipher key _ plain := if key.length = 32 then some (mask plain sampleStream, sampleTag) else none
  decipher key _ tag encrypted := if key.length = 32 ∧ tag = sampleTag then some (mask encrypted sampleStream) else none
  replaced _ := ""

theorem sample_accepts {key : Bytes} (hk : key.length = 32) : sample.Accepts key where
  seals _ plain _ := ⟨mask plain sampleStream, sampleTag, if_pos hk⟩
  tag _ _ _ _ h := by
    cases (Option.ite_none_right_eq_some.mp h).2
    rfl
  opens _ tag encrypted plain _ _ := by
    simp only [sample, hk, true_and, if_true, Option.ite_none_right_eq_some, Option.some.injEq, Prod.mk.injEq]
    constructor
    · rintro ⟨rfl, rfl⟩
      exact ⟨mask_mask .., rfl⟩
    · rintro ⟨rfl, rfl⟩
      exact ⟨rfl, mask_mask ..⟩

end NodeCrypto

/-! ## What is accepted -/

/-- Of the payloads that are long enough, exactly those are accepted that `encrypt` makes of some bytes, and those that
it makes of a text read back as the text. -/
theorem decrypt_accepts_iff {base64Key payload : String} (h : C.Accepts (Base64.decode base64Key))
    (hlen : IV_LENGTH + TAG_LENGTH ≤ (Base64.decode payload).length) (text : String) :
    (decrypt C payload base64Key = .ok text ↔ ∃ iv plain, iv.length = IV_LENGTH ∧ C.toText plain = text ∧
      encryptBytes C plain (Base64.decode base64Key) iv = some (Base64.decode payload)) ∧
    ∀ iv, iv.length = IV_LENGTH → encrypt C text base64Key iv = .ok payload →
      decrypt C payload base64Key = .ok text := by
  refine ⟨?_, fun iv hi he => ?_⟩
  · unfold decrypt
    constructor
    · intro hd
      split at hd
      · cases hd
      · rename_i plain hp
        obtain ⟨iv, hi, he⟩ := (decryptBytes_iff h hlen).mp hp
        cases hd
        exact ⟨iv, plain, hi, rfl, he⟩
    · rintro ⟨iv, plain, hi, rfl, he⟩
      rw [(decryptBytes_iff h hlen).mpr ⟨iv, hi, he⟩]
      rfl
  · obtain ⟨payload', he', hd⟩ := @decrypt_encrypt C base64Key text h iv hi
    cases he.symm.trans he'
    exact hd

/-- A refresh token under a key of 32 bytes. The payload is the vector, the tag and the ciphertext, in this order. -/
theorem decrypt_accepts_iff_refresh :
    decrypt .sample "ZGVmZ2hpamtsbW5vqsQ9ZUkZYYiclB0K/eukizp+uBQcmj4=" "AAECAwQFBgcICQoLDA0ODxAREhMUFRYXGBkaGxwdHh8=" =
        .ok "refresh" ∧
      ∀ text, decrypt .sample "ZGVmZ2hpamtsbW5vqsQ9ZUkZYYiclB0K/eukizp+uBQcmj4="
          "AAECAwQFBgcICQoLDA0ODxAREhMUFRYXGBkaGxwdHh8=" = .ok text ↔
        ∃ iv plain, iv.length = IV_LENGTH ∧ NodeCrypto.sample.toText plain = text ∧
          encryptBytes .sample plain (Base64.decode "AAECAwQFBgcICQoLDA0ODxAREhMUFRYXGBkaGxwdHh8=") iv =
            some (Base64.decode "ZGVmZ2hpamtsbW5vqsQ9ZUkZYYiclB0K/eukizp+uBQcmj4=") := by
  have hk : (Base64.decode "AAECAwQFBgcICQoLDA0ODxAREhMUFRYXGBkaGxwdHh8=").length = 32 := by decide +kernel
  have hlen : IV_LENGTH + TAG_LENGTH ≤
      (Base64.decode "ZGVmZ2hpamtsbW5vqsQ9ZUkZYYiclB0K/eukizp+uBQcmj4=").length := by decide +kernel
  refine ⟨?_, fun text => (decrypt_accepts_iff (NodeCrypto.sample_accepts hk) hlen text).1⟩
  exact (decrypt_accepts_iff (NodeCrypto.sample_accepts hk) hlen "refresh").2 NodeCrypto.sampleIv rfl
    (by decide +kernel)

end CoachingCalendar
