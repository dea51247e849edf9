/-! Text as octets. Every text has one octet form, and reading that form back gives the text. -/
namespace Cutover.Utf8

def encode (text : String) : List UInt8 := text.toByteArray.data.toList

/-- The text an octet sequence spells, when it is well formed. -/
def decode (octets : List UInt8) : Option String := String.fromUTF8? ⟨octets.toArray⟩

theorem decode_encode (text : String) : decode (encode text) = some text := by
  have whole : (⟨(encode text).toArray⟩ : ByteArray) = text.toByteArray := by
    simp [encode]
  rw [decode, whole]
  simp only [String.fromUTF8?, dif_pos text.isValidUTF8]
  rfl

/-- A text is spelled in one way only. -/
theorem decode_eq_some_iff {octets : List UInt8} {text : String} :
    decode octets = some text ↔ octets = encode text := by
  constructor
  · intro decoded
    simp only [decode, String.fromUTF8?] at decoded
    split at decoded
    · cases decoded
      rw [encode, String.fromUTF8]
    · cases decoded
  · rintro rfl
    exact decode_encode text

theorem encode_append (s t : String) : encode (s ++ t) = encode s ++ encode t := by
  simp [encode, String.toByteArray_append]

theorem eq_of_encode {s t : String} (same : encode s = encode t) : s = t := by
  have read := decode_encode s
  rw [same, decode_encode] at read
  exact (Option.some.inj read).symm

end Cutover.Utf8
