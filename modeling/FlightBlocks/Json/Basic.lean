/-!
JSON values. A value keeps what a reader may still need to judge: a text keeps its `\u` escapes
apart, since half a surrogate pair is well-formed but no character, and a number keeps its digits,
since how it was written decides whether it is an integer.
-/

namespace FlightBlocks

/-- One character of a JSON text as written: itself, or the 16-bit code of a `\u` escape. -/
inductive JsonMark where
  | char (c : Char)
  | code (u : Nat)
  deriving DecidableEq, Repr

structure Numeral where
  negative : Bool
  whole : List Nat
  fraction : Option (List Nat)
  exponent : Option (Bool × List Nat)
  deriving DecidableEq, Repr

inductive Json where
  | null
  | bool (b : Bool)
  | number (n : Numeral)
  | text (marks : List JsonMark)
  | array (items : List Json)
  | object (members : List (List JsonMark × Json))
  deriving Repr, Inhabited

namespace JsonMark

/-- The characters of `marks`; none if half a surrogate pair stands alone. -/
def chars? : List JsonMark → Option (List Char)
  | [] => some []
  | .char c :: rest => (chars? rest).map (c :: ·)
  | .code u :: rest =>
    if 0xD800 ≤ u ∧ u < 0xDC00 then
      match rest with
      | .code v :: rest' =>
        if 0xDC00 ≤ v ∧ v < 0xE000 then
          (chars? rest').map (Char.ofNat (0x10000 + (u - 0xD800) * 0x400 + (v - 0xDC00)) :: ·)
        else none
      | _ => none
    else if 0xDC00 ≤ u ∧ u < 0xE000 then none
    else (chars? rest).map (Char.ofNat u :: ·)

def string? (marks : List JsonMark) : Option String := (chars? marks).map String.ofList

def ofString (s : String) : List JsonMark := s.toList.map .char

end JsonMark

namespace Numeral

def digitsOf (n : Nat) : List Nat := (Nat.toDigits 10 n).map fun c => c.toNat - 48

def ofDigits (digits : List Nat) : Nat := digits.foldl (fun n d => n * 10 + d) 0

def ofNat (n : Nat) : Numeral := ⟨false, digitsOf n, none, none⟩

def ofInt : Int → Numeral
  | .ofNat n => ofNat n
  | .negSucc n => ⟨true, digitsOf (n + 1), none, none⟩

/-- The integer a number stands for: written without fraction and exponent, and not `-0`. -/
def int? (n : Numeral) : Option Int :=
  if n.fraction.isSome || n.exponent.isSome then none
  else
    let magnitude := ofDigits n.whole
    if n.negative then (if magnitude = 0 then none else some (-(magnitude : Int)))
    else some magnitude

def intIn? (low high : Int) (n : Numeral) : Option Int :=
  n.int?.filter fun i => low ≤ i && i ≤ high

end Numeral

namespace Json

def string (s : String) : Json := .text (JsonMark.ofString s)

def nat (n : Nat) : Json := .number (Numeral.ofNat n)

def int (i : Int) : Json := .number (Numeral.ofInt i)

def strings (texts : List String) : Json := .array (texts.map string)

def record (members : List (String × Json)) : Json :=
  .object (members.map fun (name, value) => (JsonMark.ofString name, value))

def ofOption {α : Type} (f : α → Json) : Option α → Json
  | none => .null
  | some a => f a

end Json

end FlightBlocks
