import FlightBlocks.Text.Utf8
/-!
Byte text: text in which each character stands for one byte. Programs that know nothing of
encodings take their words apart in this form.
-/

namespace FlightBlocks.Bytes

def ofList (bytes : List UInt8) : String :=
  String.ofList (bytes.map fun b => Char.ofNat b.toNat)

def toList (s : String) : List UInt8 := s.toList.map fun c => UInt8.ofNat c.toNat

def encode (s : String) : String := ofList s.toUTF8.toList

/-- The text that bytes are, with the replacement character for what is no text. -/
def decode (s : String) : String := Text.ofBytes ⟨(toList s).toArray⟩

end FlightBlocks.Bytes
