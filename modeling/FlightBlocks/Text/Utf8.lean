/-!
Bytes read as text that may not be valid. Each maximal piece that could still have begun a
character, and each byte that could not, becomes one replacement character.
-/

namespace FlightBlocks.Text

def replacement : Char := Char.ofNat 0xFFFD

def continues (b : UInt8) : Bool := 0x80 ≤ b && b ≤ 0xBF

def secondOfThree (a b : UInt8) : Bool :=
  if a == 0xE0 then 0xA0 ≤ b && b ≤ 0xBF
  else if a == 0xED then 0x80 ≤ b && b ≤ 0x9F
  else continues b

def secondOfFour (a b : UInt8) : Bool :=
  if a == 0xF0 then 0x90 ≤ b && b ≤ 0xBF
  else if a == 0xF4 then 0x80 ≤ b && b ≤ 0x8F
  else continues b

def lowBits (b : UInt8) : Nat := b.toNat % 64

def ofTwo (a b : UInt8) : Char := Char.ofNat (a.toNat % 32 * 64 + lowBits b)

def ofThree (a b c : UInt8) : Char :=
  Char.ofNat (a.toNat % 16 * 4096 + lowBits b * 64 + lowBits c)

def ofFour (a b c d : UInt8) : Char :=
  Char.ofNat (a.toNat % 8 * 262144 + lowBits b * 4096 + lowBits c * 64 + lowBits d)

/-- Bytes that start a character and do not finish it become one replacement character together. -/
def lossy : List UInt8 → List Char
  | [] => []
  | a :: rest =>
    if a < 0x80 then Char.ofNat a.toNat :: lossy rest
    else if 0xC2 ≤ a && a ≤ 0xDF then
      match rest with
      | b :: rest' =>
        if continues b then ofTwo a b :: lossy rest'
        else replacement :: lossy (b :: rest')
      | [] => [replacement]
    else if 0xE0 ≤ a && a ≤ 0xEF then
      match rest with
      | b :: rest' =>
        if secondOfThree a b then
          match rest' with
          | c :: rest'' =>
            if continues c then ofThree a b c :: lossy rest''
            else replacement :: lossy (c :: rest'')
          | [] => [replacement]
        else replacement :: lossy (b :: rest')
      | [] => [replacement]
    else if 0xF0 ≤ a && a ≤ 0xF4 then
      match rest with
      | b :: rest' =>
        if secondOfFour a b then
          match rest' with
          | c :: rest'' =>
            if continues c then
              match rest'' with
              | d :: rest''' =>
                if continues d then ofFour a b c d :: lossy rest'''
                else replacement :: lossy (d :: rest''')
              | [] => [replacement]
            else replacement :: lossy (c :: rest'')
          | [] => [replacement]
        else replacement :: lossy (b :: rest')
      | [] => [replacement]
    else replacement :: lossy rest
termination_by bytes => bytes.length

def ofBytes (bytes : ByteArray) : String := String.ofList (lossy bytes.toList)

end FlightBlocks.Text
