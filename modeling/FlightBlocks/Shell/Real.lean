import FlightBlocks.Shell.Number
/-!
Numbers with a fraction in print: with a fixed number of places, with an exponent, in the shorter
of the two forms, or in base 16. A number is taken as the fraction that its 64 bits stand for, and
rounded once; a half goes to the even neighbour.
-/

namespace FlightBlocks.Shell

/-- A number that is no whole one, as its bits give it. -/
inductive Real where
  | finite (negative : Bool) (numerator denominator : Nat)
  | infinite (negative : Bool)
  | undefined
  deriving DecidableEq, Repr

namespace Real

def ofFloat (x : Float) : Real :=
  let bits := x.toBits.toNat
  let negative := bits >>> 63 = 1
  let exponent := (bits >>> 52) % 2048
  let fraction := bits % (1 <<< 52)
  if exponent = 2047 then if fraction = 0 then .infinite negative else .undefined
  else if exponent = 0 then .finite negative fraction (1 <<< 1074)
  else if exponent ≥ 1075 then .finite negative (((1 <<< 52) + fraction) <<< (exponent - 1075)) 1
  else .finite negative ((1 <<< 52) + fraction) (1 <<< (1075 - exponent))

def nearest (numerator denominator : Nat) : Nat :=
  let q := numerator / denominator
  let r := 2 * (numerator % denominator)
  if r < denominator then q
  else if denominator < r then q + 1
  else if q % 2 = 0 then q else q + 1

structure Mantissa where
  whole : List Char
  places : List Char
  rest : List Char

def Mantissa.scan? (isDigit : Char → Bool) (cs : List Char) : Option Mantissa :=
  let whole := cs.takeWhile isDigit
  match cs.drop whole.length with
  | '.' :: more =>
    let places := more.takeWhile isDigit
    if whole.isEmpty && places.isEmpty then none
    else some ⟨whole, places, more.drop places.length⟩
  | rest => if whole.isEmpty then none else some ⟨whole, [], rest⟩

def exponent (signs : List Char) (cs : List Char) : Int × List Char :=
  match cs with
  | c :: more =>
    let r := Number.scan (some 10) more
    if signs.contains c && r.found && !more.head?.any Number.isSpace then
      (max (-5000) (min 5000 r.value), r.rest)
    else (0, cs)
  | [] => (0, [])

structure Scan where
  value : Real
  rest : List Char
  outside : Bool

def isOutside (digits : Nat) : Real → Bool
  | .finite _ n d => digits != 0 && n <<< 1022 < d
  | _ => true

def decimal? (negative : Bool) (cs : List Char) : Option Scan := do
  let m ← Mantissa.scan? Char.isDigit cs
  let (e, rest) := exponent ['e', 'E'] m.rest
  let power := e - m.places.length
  let digits := Number.valueOf 10 (m.whole ++ m.places)
  let x := Float.ofScientific digits (power < 0) power.natAbs
  let x := ofFloat (if negative then -x else x)
  return ⟨x, rest, isOutside digits x⟩

def hexadecimal? (negative : Bool) (cs : List Char) : Option Scan := do
  let m ← Mantissa.scan? (fun c => (Number.digit? 16 c).isSome) cs
  let (e, rest) := exponent ['p', 'P'] m.rest
  let digits := Number.valueOf 16 (m.whole ++ m.places)
  let x := (Float.ofNat digits).scaleB (e - 4 * m.places.length)
  let x := ofFloat (if negative then -x else x)
  return ⟨x, rest, isOutside digits x⟩

def word? (word : String) (cs : List Char) : Option (List Char) :=
  if (cs.take word.length).map Char.toLower == word.toList then some (cs.drop word.length)
  else none

def pastRemark (cs : List Char) : List Char :=
  match cs with
  | '(' :: more =>
    match more.dropWhile fun c => c.isAlphanum || c == '_' with
    | ')' :: rest => rest
    | _ => cs
  | _ => cs

def scan? (cs : List Char) : Option Scan :=
  let start := cs.dropWhile Number.isSpace
  let (negative, body) := match start with
    | '-' :: body => (true, body)
    | '+' :: body => (false, body)
    | body => (false, body)
  let base16 := match body with
    | '0' :: x :: more => if x == 'x' || x == 'X' then hexadecimal? negative more else none
    | _ => none
  match (word? "infinity" body).or (word? "inf" body), word? "nan" body with
  | some rest, _ => some ⟨.infinite negative, rest, false⟩
  | none, some rest => some ⟨.undefined, pastRemark rest, false⟩
  | none, none => base16.or (decimal? negative body)

def fixed (numerator denominator places : Nat) (point : Bool) : String :=
  let digits := (toString (nearest (numerator * Nat.pow 10 places) denominator)).toList
  let padded := List.replicate (places + 1 - digits.length) '0' ++ digits
  let whole := padded.take (padded.length - places)
  let fraction := padded.drop (padded.length - places)
  String.ofList whole ++ (if places > 0 || point then "." else "") ++ String.ofList fraction

def length (n : Nat) : Nat := (toString n).length

def magnitude (numerator denominator : Nat) : Int :=
  if numerator = 0 then 0
  else
    let guess : Int := length numerator - length denominator
    let reaches (e : Int) : Bool :=
      if 0 ≤ e then denominator * Nat.pow 10 e.toNat ≤ numerator
      else denominator ≤ numerator * Nat.pow 10 e.natAbs
    if reaches guess then guess else guess - 1

/-- A fraction in digits of one power of ten, with so many digits behind the first, and that power;
rounding may make it one more. -/
def scaled (numerator denominator places : Nat) : Nat × Int :=
  let e := magnitude numerator denominator
  let shift : Int := places - e
  let n := if 0 ≤ shift then nearest (numerator * Nat.pow 10 shift.toNat) denominator
    else nearest numerator (denominator * Nat.pow 10 shift.natAbs)
  if n ≥ Nat.pow 10 (places + 1) then (n / 10, e + 1) else (n, e)

def exponentText (e : Int) : String :=
  let digits := toString e.natAbs
  (if e < 0 then "e-" else "e+") ++ (if digits.length < 2 then "0" else "") ++ digits

def scientific (numerator denominator places : Nat) (point : Bool) : String :=
  let (n, e) := scaled numerator denominator places
  fixed n (Nat.pow 10 places) places point ++ exponentText e

def withoutZeros (s : String) : String :=
  if s.toList.contains '.' then
    let kept := s.toList.reverse.dropWhile (· == '0')
    String.ofList (kept.dropWhile (· == '.')).reverse
  else s

def general (numerator denominator places : Nat) (full : Bool) : String :=
  let places := max places 1
  let (n, e) := scaled numerator denominator (places - 1)
  let shown (s : String) : String := if full then s else withoutZeros s
  if e < -4 || e ≥ places then
    shown (fixed n (Nat.pow 10 (places - 1)) (places - 1) full) ++ exponentText e
  else shown (fixed numerator denominator (places - 1 - e).toNat full)

/-- The power of two of the first digit of a fraction in base 2; the numbers of 64 bits have none
below -1022. -/
def binaryMagnitude (numerator denominator : Nat) : Int :=
  let guess : Int := numerator.log2 - denominator.log2
  let reaches (e : Int) : Bool :=
    if 0 ≤ e then denominator <<< e.toNat ≤ numerator
    else denominator ≤ numerator <<< e.natAbs
  max (-1022) (if reaches guess then guess else guess - 1)

def hexadecimal (numerator denominator : Nat) (places : Option Nat) (point : Bool) : String :=
  let e := if numerator = 0 then 0 else binaryMagnitude numerator denominator
  let (n, d) := if 0 ≤ e then (numerator, denominator <<< e.toNat)
    else (numerator <<< e.natAbs, denominator)
  let shown := nearest (n * Nat.pow 16 (places.getD 13)) d
  let digits := Nat.toDigits 16 (shown % Nat.pow 16 (places.getD 13))
  let padded := List.replicate (places.getD 13 - digits.length) '0' ++ digits
  let fraction :=
    if places == some 0 then []
    else if places.isSome then padded
    else (padded.reverse.dropWhile (· == '0')).reverse
  toString (shown / Nat.pow 16 (places.getD 13)) ++
    (if fraction.isEmpty && !point then "" else ".") ++ String.ofList fraction ++
    (if e < 0 then "p-" else "p+") ++ toString e.natAbs

def digits (letter : Char) (precision : Option Nat) (full : Bool) : Real → String
  | .finite _ n d =>
    let places := precision.getD 6
    if letter = 'a' then hexadecimal n d precision full
    else if letter = 'f' then fixed n d places full
    else if letter = 'e' then scientific n d places full
    else general n d places full
  | .infinite _ => "inf"
  | .undefined => "nan"

def isNegative : Real → Bool
  | .finite negative _ _ | .infinite negative => negative
  | .undefined => false

def isFinite : Real → Bool
  | .finite _ _ _ => true
  | _ => false

end Real

end FlightBlocks.Shell
