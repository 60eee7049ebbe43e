import ZoneConsole.Proofs.Text.Utf8
import ZoneConsole.Url.Percent

/-!
# Percent encoding is undone

Whatever set of characters is encoded, decoding gives the bytes of the text back, as long
as the percent sign itself is in the set.

* **`percentDecode_percentEncode`** — the bytes of an encoded text are those of the text.
* **`readUtf8_percentDecode`** — so the text is read back.
-/

namespace ZoneConsole.Url

/-- A digit written in upper case is read back. -/
theorem hexValue?_hexDigitUpper : ∀ n < 16, Text.hexValue? (Text.hexDigitUpper n) = some n := by
  decide

/-- An encoded byte in front of a text is decoded first. -/
theorem percentDecode_percentByte (b : UInt8) (rest : List Char) :
    percentDecode (percentByte b ++ rest) = b :: percentDecode rest := by
  have hlt : b.toNat < 256 := UInt8.toNat_lt b
  have hhigh := hexValue?_hexDigitUpper (b.toNat / 16) (by omega)
  have hlow := hexValue?_hexDigitUpper (b.toNat % 16) (by omega)
  have hback : (b.toNat / 16 * 16 + b.toNat % 16).toUInt8 = b := by
    rw [Nat.div_add_mod']
    exact UInt8.ofNat_toNat
  show percentDecode ('%' :: Text.hexDigitUpper (b.toNat / 16) ::
    Text.hexDigitUpper (b.toNat % 16) :: rest) = _
  rw [percentDecode]
  simp only [hhigh, hlow, hback]

/-- Encoded bytes in front of a text are decoded first. -/
theorem percentDecode_bytes (bytes : List UInt8) (rest : List Char) :
    percentDecode (bytes.flatMap percentByte ++ rest) = bytes ++ percentDecode rest := by
  induction bytes with
  | nil => rfl
  | cons b more ih =>
      rw [List.flatMap_cons, List.append_assoc, percentDecode_percentByte, ih]
      rfl

/-- A character other than the percent sign stands for its own bytes. -/
theorem percentDecode_cons {c : Char} (hc : c ≠ '%') (rest : List Char) :
    percentDecode (c :: rest) = Text.utf8Char c ++ percentDecode rest := by
  rw [percentDecode]
  intro a b more h
  exact absurd h hc

/-- **An encoded text is decoded to the bytes of the text**, in front of whatever follows. -/
theorem percentDecode_percentEncode {set : Char → Bool} (hset : set '%' = true)
    (cs rest : List Char) :
    percentDecode (percentEncode set cs ++ rest) = Text.utf8 cs ++ percentDecode rest := by
  induction cs with
  | nil => rfl
  | cons c more ih =>
      rw [percentEncode, List.flatMap_cons, List.append_assoc, Text.utf8, List.flatMap_cons,
        List.append_assoc]
      by_cases hc : set c = true
      · rw [if_pos hc, percentChar, percentDecode_bytes]
        exact congrArg (_ ++ ·) ih
      · have hne : c ≠ '%' := by
          rintro rfl
          exact hc hset
        rw [if_neg hc, List.singleton_append, percentDecode_cons hne]
        exact congrArg (_ ++ ·) ih

/-- **An encoded text is read back.** -/
theorem readUtf8_percentDecode {set : Char → Bool} (hset : set '%' = true) (cs : List Char) :
    Text.readUtf8 (percentDecode (percentEncode set cs)) = cs := by
  have h := percentDecode_percentEncode hset cs []
  rw [List.append_nil, percentDecode, List.append_nil] at h
  rw [h, Text.readUtf8_utf8]

end ZoneConsole.Url
