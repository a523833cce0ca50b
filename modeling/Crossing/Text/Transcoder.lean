import Crossing.Text.Utf8

/-!
# Text on its way between host and guest

A host may bring an encoder and a decoder of its own, in any combination. Where it brings none, the
portable ones take the way through UTF-16 units. On well-formed text both ways agree.
-/

namespace Crossing

/-- What the host brings along. -/
structure Features where
  /-- The host encodes UTF-8. -/
  encoder : Bool
  /-- The host decodes UTF-8. -/
  decoder : Bool
  deriving DecidableEq

namespace Features

def all : Features := ⟨true, true⟩

def none : Features := ⟨false, false⟩

/-- The features as a bit set: one for the encoder, two for the decoder; other bits are dropped. -/
def ofBits (n : Nat) : Features := ⟨n % 2 = 1, n / 2 % 2 = 1⟩

def toBits (f : Features) : Nat := f.encoder.toNat + 2 * f.decoder.toNat

/-- The bytes of a text. -/
def encode (f : Features) (text : String) : ByteArray :=
  if f.encoder then text.toUTF8 else (Utf8.ofUnits (Utf16.ofText text)).toByteArray

/-- The number of the bytes of a text. A host that encodes UTF-8 knows it without making them. -/
def encodedSize (f : Features) (text : String) : Nat :=
  if f.encoder then text.utf8ByteSize else (f.encode text).size

/-- The text of any bytes. -/
def decode (f : Features) (bytes : ByteArray) : String :=
  if f.decoder then Utf8.repair bytes.data.toList
  else Utf16.repair (Utf8.toUnits bytes.data.toList)

end Features

end Crossing
