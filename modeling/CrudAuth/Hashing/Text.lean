import Mathlib.Data.List.Basic
import Mathlib.Tactic.FinCases

/-
  Strings of code points, their UTF-8 bytes, and base64.

  A string may hold lone surrogates; such a string has no
  UTF-8 encoding.

  Main declarations:
    * `Str.encode`
    * `Str.encode_injective`
    * `Str.prefix_of_encode`
    * `Base64.encode`
    * `Base64.decode`
    * `Base64.decode_encode`
-/

namespace CrudAuth

namespace Hashing

------------------------------------------------------------
-- Strings
------------------------------------------------------------

/- What a codec makes of a text. -/
abbrev Bytes := List UInt8

/- A code point: a scalar value or a lone surrogate. -/
inductive CodePoint where
  | scalar (char : Char)
  | surrogate (offset : Fin 2048)
deriving DecidableEq

/- A Python string, which may hold lone surrogates. -/
abbrev Str := List CodePoint

namespace Str

/- The UTF-8 bytes, when no lone surrogate is there. -/
def encode : Str → Option Bytes
  | [] => some []
  | .scalar char :: rest =>
      (encode rest).map (String.utf8EncodeChar char ++ ·)
  | .surrogate _ :: _ => none

/- The string whose characters are these bytes. -/
def ofAscii (text : Bytes) : Str :=
  text.map fun byte => .scalar (Char.ofUInt8 byte)

/- A text without surrogates. -/
def ofString (text : String) : Str :=
  text.toList.map .scalar

end Str

/- Bytes below 128. -/
def Ascii (text : Bytes) : Prop :=
  ∀ byte ∈ text, byte.toNat < 128

------------------------------------------------------------
-- UTF-8
------------------------------------------------------------

theorem toNat_ofUInt8 (byte : UInt8) :
    (Char.ofUInt8 byte).val.toNat = byte.toNat :=
  UInt8.toNat_toUInt32 byte

/- A byte below 128 encodes to itself. -/
theorem utf8EncodeChar_ofUInt8
    {byte : UInt8}
    (hAscii : byte.toNat < 128) :
    String.utf8EncodeChar (Char.ofUInt8 byte) = [byte] := by
  unfold String.utf8EncodeChar
  simp only [toNat_ofUInt8]
  rw [if_pos (by omega)]
  simp

/-
  A character whose encoding starts below 128 is that one
  byte: UTF-8 is a prefix code over ASCII.
-/
theorem eq_ofUInt8_of_utf8EncodeChar
    {char : Char}
    {byte : UInt8}
    {rest : Bytes}
    (hAscii : byte.toNat < 128)
    (hBytes : String.utf8EncodeChar char = byte :: rest) :
    char = Char.ofUInt8 byte ∧ rest = [] := by
  unfold String.utf8EncodeChar at hBytes
  simp only at hBytes
  split at hBytes
  · rename_i hSmall
    rcases List.cons.inj hBytes with ⟨hByte, hRest⟩
    constructor
    · apply Char.ext
      apply UInt32.toNat_inj.mp
      rw [toNat_ofUInt8, ← hByte, UInt8.toNat_ofNat']
      omega
    · exact hRest.symm
  · -- A longer form starts at 192 or above.
    split at hBytes
    · rcases List.cons.inj hBytes with ⟨hByte, -⟩
      rw [← hByte, UInt8.toNat_ofNat'] at hAscii
      omega
    · split at hBytes
      · rcases List.cons.inj hBytes with ⟨hByte, -⟩
        rw [← hByte, UInt8.toNat_ofNat'] at hAscii
        omega
      · rcases List.cons.inj hBytes with ⟨hByte, -⟩
        rw [← hByte, UInt8.toNat_ofNat'] at hAscii
        omega

namespace Str

@[simp]
theorem encode_nil : encode [] = some [] := rfl

/- An encoding is built character by character. -/
theorem encode_cons
    {char : Char}
    {rest : Str}
    {bytes : Bytes}
    (hEncode : encode (.scalar char :: rest) = some bytes) :
    ∃ tail, encode rest = some tail ∧
      bytes = String.utf8EncodeChar char ++ tail := by
  rw [encode, Option.map_eq_some_iff] at hEncode
  rcases hEncode with ⟨tail, hTail, rfl⟩
  exact ⟨tail, hTail, rfl⟩

/- An encodable string is a list of scalar values. -/
theorem eq_chars_of_encode
    {text : Str}
    {bytes : Bytes}
    (hEncode : text.encode = some bytes) :
    ∃ chars : List Char,
      text = chars.map .scalar ∧
        bytes = chars.flatMap String.utf8EncodeChar := by
  induction text generalizing bytes with
  | nil =>
      rw [encode_nil] at hEncode
      exact ⟨[], rfl, (Option.some.inj hEncode).symm⟩
  | cons point rest ih =>
      cases point with
      | surrogate offset => cases hEncode
      | scalar char =>
          rcases encode_cons hEncode with
            ⟨tail, hTail, rfl⟩
          rcases ih hTail with ⟨chars, hRest, hBytes⟩
          refine ⟨char :: chars, ?_, ?_⟩
          · rw [hRest, List.map_cons]
          · rw [hBytes, List.flatMap_cons]

/- Different strings have different bytes. -/
theorem encode_injective
    {left right : Str}
    {bytes : Bytes}
    (hLeft : left.encode = some bytes)
    (hRight : right.encode = some bytes) :
    left = right := by
  rcases eq_chars_of_encode hLeft with ⟨chars, rfl, hChars⟩
  rcases eq_chars_of_encode hRight with
    ⟨others, rfl, hOthers⟩
  have hUtf8 : chars.utf8Encode = others.utf8Encode := by
    unfold List.utf8Encode
    rw [← hChars, ← hOthers]
  have hStrings :
      String.ofList chars = String.ofList others := by
    apply String.toByteArray_inj.mp
    simpa using hUtf8
  rw [String.ofList_injective hStrings]

/- ASCII text is its own encoding. -/
theorem encode_ofAscii
    {text : Bytes}
    (hAscii : Ascii text) :
    (ofAscii text).encode = some text := by
  induction text with
  | nil => rfl
  | cons byte rest ih =>
      have hRest : Ascii rest := fun other hOther =>
        hAscii other (List.mem_cons_of_mem byte hOther)
      have hByte := hAscii byte List.mem_cons_self
      have hEncode := ih hRest
      unfold ofAscii at hEncode ⊢
      rw [List.map_cons, encode, hEncode,
        utf8EncodeChar_ofUInt8 hByte]
      rfl

/- Bytes that start with ASCII text come from it. -/
theorem prefix_of_encode
    {text : Str}
    {bytes start : Bytes}
    (hAscii : Ascii start)
    (hEncode : text.encode = some bytes)
    (hStart : start <+: bytes) :
    ofAscii start <+: text := by
  induction start generalizing text bytes with
  | nil => exact List.nil_prefix
  | cons byte rest ih =>
      have hRest : Ascii rest := fun other hOther =>
        hAscii other (List.mem_cons_of_mem byte hOther)
      have hByte := hAscii byte List.mem_cons_self
      rcases hStart with ⟨after, rfl⟩
      cases text with
      | nil => cases hEncode
      | cons point tail =>
          cases point with
          | surrogate offset => cases hEncode
          | scalar char =>
              rcases encode_cons hEncode with
                ⟨others, hOthers, hBytes⟩
              cases hChar : String.utf8EncodeChar char with
              | nil =>
                  exact absurd hChar
                    String.utf8EncodeChar_ne_nil
              | cons first more =>
                  rw [hChar, List.cons_append,
                    List.cons_append] at hBytes
                  rcases List.cons.inj hBytes with
                    ⟨rfl, hMore⟩
                  rcases eq_ofUInt8_of_utf8EncodeChar hByte
                    hChar with ⟨rfl, rfl⟩
                  have hTail := ih hRest hOthers
                    ⟨after, hMore⟩
                  unfold ofAscii at hTail ⊢
                  rw [List.map_cons]
                  exact (List.prefix_cons_inj _).mpr hTail

/- A string that starts with ASCII text has its bytes. -/
theorem prefix_encode
    {text : Str}
    {bytes start : Bytes}
    (hAscii : Ascii start)
    (hEncode : text.encode = some bytes)
    (hStart : ofAscii start <+: text) :
    start <+: bytes := by
  induction start generalizing text bytes with
  | nil => exact List.nil_prefix
  | cons byte rest ih =>
      have hRest : Ascii rest := fun other hOther =>
        hAscii other (List.mem_cons_of_mem byte hOther)
      have hByte := hAscii byte List.mem_cons_self
      rcases hStart with ⟨after, rfl⟩
      have hParts :
          encode (.scalar (Char.ofUInt8 byte) ::
            (ofAscii rest ++ after)) = some bytes :=
        hEncode
      rcases encode_cons hParts with ⟨tail, hTail, rfl⟩
      rw [utf8EncodeChar_ofUInt8 hByte]
      exact (List.prefix_cons_inj byte).mpr
        (ih hRest hTail ⟨after, rfl⟩)

end Str

------------------------------------------------------------
-- Base64
------------------------------------------------------------

namespace Base64

/- The padding character, `=`. -/
def pad : UInt8 := 61

/- The character of six bits. -/
def character (sextet : Nat) : UInt8 :=
  if sextet < 26 then UInt8.ofNat (65 + sextet)
  else if sextet < 52 then UInt8.ofNat (71 + sextet)
  else if sextet < 62 then UInt8.ofNat (sextet - 4)
  else if sextet = 62 then 43
  else 47

/- The six bits of a character of the alphabet. -/
def value (character : UInt8) : Option Nat :=
  let code := character.toNat
  if 65 ≤ code ∧ code ≤ 90 then some (code - 65)
  else if 97 ≤ code ∧ code ≤ 122 then some (code - 71)
  else if 48 ≤ code ∧ code ≤ 57 then some (code + 4)
  else if code = 43 then some 62
  else if code = 47 then some 63
  else none

/- `b64encode`. -/
def encode : Bytes → Bytes
  | [] => []
  | [first] =>
      [character (first.toNat / 4),
        character (first.toNat % 4 * 16), pad, pad]
  | [first, second] =>
      [character (first.toNat / 4),
        character (first.toNat % 4 * 16 +
          second.toNat / 16),
        character (second.toNat % 16 * 4), pad]
  | first :: second :: third :: rest =>
      character (first.toNat / 4) ::
        character (first.toNat % 4 * 16 +
          second.toNat / 16) ::
        character (second.toNat % 16 * 4 +
          third.toNat / 64) ::
        character (third.toNat % 64) ::
        encode rest

/-
  `b64decode(.., validate=True)`: groups of four, padding
  only at the end of the last one.
-/
def decode : Bytes → Option Bytes
  | [] => some []
  | first :: second :: third :: fourth :: rest => do
      let high ← value first
      let next ← value second
      let one := UInt8.ofNat (high * 4 + next / 16)
      if fourth = pad then
        if rest ≠ [] then
          none
        else if third = pad then
          some [one]
        else do
          let low ← value third
          some [one,
            UInt8.ofNat (next % 16 * 16 + low / 4)]
      else do
        let low ← value third
        let last ← value fourth
        let more ← decode rest
        some (one ::
          UInt8.ofNat (next % 16 * 16 + low / 4) ::
          UInt8.ofNat (low % 4 * 64 + last) :: more)
  | _ => none

/- A character stands for its six bits. -/
theorem value_character
    {sextet : Nat}
    (hSextet : sextet < 64) :
    value (character sextet) = some sextet := by
  revert sextet
  decide

/- No six bits are written as padding. -/
theorem character_ne_pad
    {sextet : Nat}
    (hSextet : sextet < 64) :
    character sextet ≠ pad := by
  revert sextet
  decide

/- Characters of the alphabet are ASCII, and not NUL. -/
theorem character_bounds
    {sextet : Nat}
    (hSextet : sextet < 64) :
    0 < (character sextet).toNat ∧
      (character sextet).toNat < 128 := by
  revert sextet
  decide

/- What was encoded is read back. -/
theorem decode_encode
    (bytes : Bytes) :
    decode (encode bytes) = some bytes := by
  induction bytes using encode.induct with
  | case1 => rfl
  | case2 first =>
      have hFirst := first.toNat_lt
      simp only [encode, decode]
      rw [value_character (by omega),
        value_character (by omega)]
      simp only [Option.bind_eq_bind, Option.bind_some,
        if_true, ne_eq, not_true_eq_false, if_false]
      congr 2
      apply UInt8.toNat_inj.mp
      rw [UInt8.toNat_ofNat']
      omega
  | case3 first second =>
      have hFirst := first.toNat_lt
      have hSecond := second.toNat_lt
      simp only [encode, decode]
      rw [value_character (by omega),
        value_character (by omega),
        value_character (by omega)]
      simp only [Option.bind_eq_bind, Option.bind_some,
        if_true, ne_eq, not_true_eq_false, if_false]
      rw [if_neg (character_ne_pad (by omega))]
      congr 3
      · apply UInt8.toNat_inj.mp
        rw [UInt8.toNat_ofNat']
        omega
      · apply UInt8.toNat_inj.mp
        rw [UInt8.toNat_ofNat']
        omega
  | case4 first second third rest ih =>
      have hFirst := first.toNat_lt
      have hSecond := second.toNat_lt
      have hThird := third.toNat_lt
      simp only [encode, decode]
      rw [value_character (by omega),
        value_character (by omega),
        value_character (by omega),
        value_character (by omega), ih]
      have hPad : character (third.toNat % 64) ≠ pad :=
        character_ne_pad (by omega)
      simp only [Option.bind_eq_bind, Option.bind_some,
        if_neg hPad]
      congr 2
      · apply UInt8.toNat_inj.mp
        rw [UInt8.toNat_ofNat']
        omega
      · congr 1
        · apply UInt8.toNat_inj.mp
          rw [UInt8.toNat_ofNat']
          omega
        · congr 1
          apply UInt8.toNat_inj.mp
          rw [UInt8.toNat_ofNat']
          omega

/- Two byte strings are never encoded alike. -/
theorem encode_injective :
    Function.Injective encode := by
  intro left right hEncode
  have hDecode := decode_encode left
  rw [hEncode, decode_encode] at hDecode
  exact (Option.some.inj hDecode).symm

/- Three bytes take four characters. -/
theorem length_encode
    (bytes : Bytes) :
    (encode bytes).length = (bytes.length + 2) / 3 * 4 := by
  induction bytes using encode.induct with
  | case1 => rfl
  | case2 first => simp [encode]
  | case3 first second => simp [encode]
  | case4 first second third rest ih =>
      simp only [encode, List.length_cons, ih]
      omega

/- Base64 text is ASCII without NUL. -/
theorem encode_bounds
    {bytes : Bytes}
    {byte : UInt8}
    (hMem : byte ∈ encode bytes) :
    0 < byte.toNat ∧ byte.toNat < 128 := by
  induction bytes using encode.induct with
  | case1 => cases hMem
  | case2 first =>
      have hFirst := first.toNat_lt
      simp only [encode, List.mem_cons, List.not_mem_nil,
        or_false] at hMem
      rcases hMem with rfl | rfl | rfl | rfl
      · exact character_bounds (by omega)
      · exact character_bounds (by omega)
      · decide
      · decide
  | case3 first second =>
      have hFirst := first.toNat_lt
      have hSecond := second.toNat_lt
      simp only [encode, List.mem_cons, List.not_mem_nil,
        or_false] at hMem
      rcases hMem with rfl | rfl | rfl | rfl
      · exact character_bounds (by omega)
      · exact character_bounds (by omega)
      · exact character_bounds (by omega)
      · decide
  | case4 first second third rest ih =>
      have hFirst := first.toNat_lt
      have hSecond := second.toNat_lt
      have hThird := third.toNat_lt
      simp only [encode, List.mem_cons] at hMem
      rcases hMem with rfl | rfl | rfl | rfl | hRest
      · exact character_bounds (by omega)
      · exact character_bounds (by omega)
      · exact character_bounds (by omega)
      · exact character_bounds (by omega)
      · exact ih hRest

/- Base64 is plain text. -/
theorem ascii_encode
    (bytes : Bytes) :
    Ascii (encode bytes) := fun _ hMem =>
  (encode_bounds hMem).2

end Base64

end Hashing

end CrudAuth
