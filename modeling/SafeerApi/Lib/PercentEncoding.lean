import Mathlib.Data.List.Basic
import Mathlib.Tactic.Common

/-!
# Percent-encoding

A text is written byte by byte, in UTF-8: a plain character stands for itself, and every byte of
another character is `%` and two hexadecimal digits. A reader that takes at least the writer's plain
characters for plain reads the bytes back, and from these the text.
-/

namespace SafeerApi.Lib.Percent

/-! ### Bytes -/

def hexDigit (n : ℕ) : Char := if n < 10 then Char.ofNat (48 + n) else Char.ofNat (55 + n)

/-- The value of a hexadecimal digit, in either case. -/
def hexValue (c : Char) : Option ℕ :=
  if '0' ≤ c ∧ c ≤ '9' then some (c.toNat - 48)
  else if 'A' ≤ c ∧ c ≤ 'F' then some (c.toNat - 55)
  else if 'a' ≤ c ∧ c ≤ 'f' then some (c.toNat - 87)
  else none

def encodeByte (b : UInt8) : List Char := ['%', hexDigit (b.toNat / 16), hexDigit (b.toNat % 16)]

/-- The bytes of an encoded text, if it is one: `plain` are the characters that stand for
themselves. -/
def decode (plain : Char → Bool) : List Char → Option (List UInt8)
  | [] => some []
  | c :: rest =>
    if c = '%' then
      match rest with
      | h :: l :: rest =>
        match hexValue h, hexValue l with
        | some h, some l => (decode plain rest).map (UInt8.ofNat (16 * h + l) :: ·)
        | _, _ => none
      | _ => none
    else if plain c then (decode plain rest).map (UInt8.ofNat c.toNat :: ·)
    else none

def encodeChar (plain : Char → Bool) (c : Char) : List Char :=
  if plain c then [c] else (String.utf8EncodeChar c).flatMap encodeByte

def encode (plain : Char → Bool) (text : List Char) : List Char := text.flatMap (encodeChar plain)

/-- The characters are ASCII, and `%` is none of them. -/
def Ascii (plain : Char → Bool) : Prop := ∀ c, plain c = true → c.toNat < 128 ∧ c ≠ '%'

variable {plain : Char → Bool}

lemma decode_other {c : Char} (hne : c ≠ '%') (rest : List Char) : decode plain (c :: rest)
    = if plain c then (decode plain rest).map (UInt8.ofNat c.toNat :: ·) else none := by
  rw [decode.eq_def]
  exact if_neg hne

lemma hexValue_hexDigit {n : ℕ} (h : n < 16) : hexValue (hexDigit n) = some n := by
  have hall : ∀ m : Fin 16, hexValue (hexDigit m) = some m.val := by decide
  exact hall ⟨n, h⟩

lemma decode_encodeByte (b : UInt8) (rest : List Char) :
    decode plain (encodeByte b ++ rest) = (decode plain rest).map (b :: ·) := by
  have hb : b.toNat < 256 := b.toNat_lt
  have hbyte : UInt8.ofNat (16 * (b.toNat / 16) + b.toNat % 16) = b := by
    rw [Nat.div_add_mod, UInt8.ofNat_toNat]
  rw [encodeByte, List.cons_append, List.cons_append, List.cons_append, List.nil_append, decode,
    if_pos rfl]
  simp only [hexValue_hexDigit (show b.toNat / 16 < 16 by omega),
    hexValue_hexDigit (show b.toNat % 16 < 16 by omega), hbyte]

lemma decode_encodeBytes (bytes : List UInt8) (rest : List Char) :
    decode plain (bytes.flatMap encodeByte ++ rest) = (decode plain rest).map (bytes ++ ·) := by
  induction bytes with
  | nil => simp
  | cons b bytes ih =>
    rw [List.flatMap_cons, List.append_assoc, decode_encodeByte, ih, Option.map_map]
    rfl

lemma utf8EncodeChar_ascii {c : Char} (h : c.toNat < 128) :
    String.utf8EncodeChar c = [UInt8.ofNat c.toNat] := by
  have hle : c.val.toNat ≤ 0x7f := Nat.le_of_lt_succ h
  rw [String.utf8EncodeChar]
  exact if_pos hle

/-- A character that is not ASCII has a byte that is not. -/
lemma exists_high_byte {c : Char} (h : 128 ≤ c.toNat) :
    ∃ b ∈ String.utf8EncodeChar c, 128 ≤ b.toNat := by
  have hgt : ¬c.val.toNat ≤ 0x7f := Nat.not_le_of_lt h
  -- the first byte is a sum with at least `0xc0`, and does not overflow
  have hbyte : ∀ n : ℕ, n < 0x40 → 128 ≤ (UInt8.ofNat (n + 0xc0)).toNat := by
    intro n hn
    rw [UInt8.toNat_ofNat', Nat.mod_eq_of_lt (by omega)]
    omega
  rw [String.utf8EncodeChar, if_neg hgt]
  split_ifs
  · exact ⟨_, List.mem_cons_self, hbyte _ (by omega)⟩
  · exact ⟨_, List.mem_cons_self, hbyte (c.val.toNat / 4096 % 0x10 + 0x20) (by omega)⟩
  · exact ⟨_, List.mem_cons_self, hbyte (c.val.toNat / 262144 % 0x08 + 0x30) (by omega)⟩

lemma decode_encodeChar {plain' : Char → Bool} (hascii : Ascii plain)
    (hle : ∀ c, plain c = true → plain' c = true) (c : Char) (rest : List Char) :
    decode plain' (encodeChar plain c ++ rest)
      = (decode plain' rest).map (String.utf8EncodeChar c ++ ·) := by
  rw [encodeChar]
  cases hc : plain c with
  | true =>
    obtain ⟨hlt, hne⟩ := hascii c hc
    rw [if_pos rfl, List.cons_append, List.nil_append, decode_other hne, if_pos (hle c hc),
      utf8EncodeChar_ascii hlt]
    rfl
  | false =>
    rw [if_neg Bool.false_ne_true]
    exact decode_encodeBytes _ _

/-- What is encoded is read back, byte by byte. -/
lemma decode_encode {plain' : Char → Bool} (hascii : Ascii plain)
    (hle : ∀ c, plain c = true → plain' c = true) (text : List Char) :
    decode plain' (encode plain text) = some (text.flatMap String.utf8EncodeChar) := by
  induction text with
  | nil => rfl
  | cons c text ih =>
    have ih : decode plain' (text.flatMap (encodeChar plain))
        = some (text.flatMap String.utf8EncodeChar) := ih
    rw [encode, List.flatMap_cons, decode_encodeChar hascii hle, ih]
    rfl

/-! ### UTF-8 -/

/-- The text of which these are the bytes, if they are one's. -/
def decodeUtf8 (bytes : List UInt8) : Option (List Char) :=
  bytes.toByteArray.utf8Decode?.map Array.toList

lemma decodeUtf8_encode (text : List Char) :
    decodeUtf8 (text.flatMap String.utf8EncodeChar) = some text := by
  have h : text.utf8Encode.utf8Decode? = some text.toArray := List.utf8Decode?_utf8Encode
  rw [List.utf8Encode] at h
  rw [decodeUtf8, h]
  rfl

end SafeerApi.Lib.Percent
