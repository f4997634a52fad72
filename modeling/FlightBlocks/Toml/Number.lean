import FlightBlocks.Text.Hex
import FlightBlocks.Toml.Basic
/-!
TOML numbers and moments. An integer has 64 bits; a float may not be too large to be one; a moment
has a day that its month has.
-/

namespace FlightBlocks.Toml

def isDigit (c : Char) : Bool := '0' ≤ c && c ≤ '9'

def valueIn (base : Nat) (digits : List Char) : Nat :=
  digits.foldl (fun n c => n * base + (Text.hexValue? c).getD 0) 0

/-- Whether `cs` has an underscore that does not stand between two digits. -/
def hasLooseUnderscore : Bool → List Char → Bool
  | afterDigit, [] => !afterDigit
  | afterDigit, c :: cs =>
    if c = '_' then !afterDigit || hasLooseUnderscore false cs else hasLooseUnderscore true cs

def digits? (ok : Char → Bool) (cs : List Char) : Option (Found (List Char)) :=
  let inRun (c : Char) : Bool := ok c || c == '_'
  let run := cs.takeWhile inRun
  if hasLooseUnderscore false run then none
  else some (run.filter ok, cs.dropWhile inRun)

def isInt64 (i : Int) : Bool := Int64.minValue.toInt ≤ i && i ≤ Int64.maxValue.toInt

def integer? (i : Int) (cs : List Char) : Option (Found Toml) :=
  if isInt64 i then some (.integer i, cs) else none

def based? (base : Nat) (cs : List Char) : Option (Found Toml) := do
  let (digits, cs) ← digits? (fun c => (Text.hexValue? c).any (· < base)) cs
  integer? (valueIn base digits) cs

def sign? : List Char → Option Char × List Char
  | '+' :: cs => (some '+', cs)
  | '-' :: cs => (some '-', cs)
  | cs => (none, cs)

/-- Whether `significand * 10 ^ e` is nearer to `2 ^ 1024` than to the largest double. -/
def overflows (significand : Nat) (e : Int) : Bool :=
  let limit := (1 <<< 1024) - (1 <<< 970)
  let size := (Nat.toDigits 10 significand).length + e
  if significand = 0 ∨ size < 300 then false
  else if size > 320 then true
  else if e ≥ 0 then significand * Nat.pow 10 e.toNat ≥ limit
  else significand ≥ limit * Nat.pow 10 (-e).toNat

def fraction? : List Char → Option (Found (List Char))
  | '.' :: cs => digits? isDigit cs
  | cs => some ([], cs)

def exponent? : List Char → Option (Found Int)
  | c :: cs =>
    if c = 'e' ∨ c = 'E' then do
      let (sign, cs) := sign? cs
      let (digits, cs) ← digits? isDigit cs
      let e : Int := valueIn 10 digits
      return (if sign == some '-' then -e else e, cs)
    else some (0, c :: cs)
  | [] => some (0, [])

/-- A decimal number behind its sign. Only a float that is too large above zero is refused. -/
def decimal? (sign : Option Char) (cs : List Char) : Option (Found Toml) := do
  let (whole, rest) ← digits? isDigit cs
  if whole.head? == some '0' && (cs.drop 1).head?.any fun c => isDigit c || c == '_' then none
  match rest with
  | '.' :: _ | 'e' :: _ | 'E' :: _ =>
    let (fraction, rest) ← fraction? rest
    let (e, rest) ← exponent? rest
    let significand := valueIn 10 (whole ++ fraction)
    if sign != some '-' && overflows significand (e - fraction.length) then none
    return (.float (String.ofList (cs.take (cs.length - rest.length))), rest)
  | _ =>
    let magnitude : Int := valueIn 10 whole
    integer? (if sign == some '-' then -magnitude else magnitude) rest

def number? (cs : List Char) : Option (Found Toml) :=
  match cs with
  | '0' :: 'x' :: rest => based? 16 rest
  | '0' :: 'o' :: rest => based? 8 rest
  | '0' :: 'b' :: rest => based? 2 rest
  | _ =>
    match sign? cs with
    | (_, 'i' :: 'n' :: 'f' :: rest) => some (.float "inf", rest)
    | (_, 'n' :: 'a' :: 'n' :: rest) => some (.float "nan", rest)
    | (sign, rest) => decimal? sign rest

def field? (count low high : Nat) (cs : List Char) : Option (Found Nat) :=
  let digits := cs.take count
  let value := valueIn 10 digits
  if digits.length = count ∧ digits.all isDigit ∧ low ≤ value ∧ value ≤ high then
    some (value, cs.drop count)
  else none

def expect? (c : Char) : List Char → Option (List Char)
  | d :: cs => if d = c then some cs else none
  | [] => none

def daysIn (year month : Nat) : Nat :=
  if month = 2 then
    (if year % 4 = 0 ∧ (year % 100 ≠ 0 ∨ year % 400 = 0) then 29 else 28)
  else if month = 4 ∨ month = 6 ∨ month = 9 ∨ month = 11 then 30
  else 31

def date? (cs : List Char) : Option (List Char) := do
  let (year, cs) ← field? 4 0 9999 cs
  let cs ← expect? '-' cs
  let (month, cs) ← field? 2 1 12 cs
  let cs ← expect? '-' cs
  let (_, cs) ← field? 2 1 (daysIn year month) cs
  return cs

def skipFraction : List Char → List Char
  | '.' :: c :: cs => if isDigit c then cs.dropWhile isDigit else '.' :: c :: cs
  | cs => cs

def time? (cs : List Char) : Option (List Char) := do
  let (_, cs) ← field? 2 0 23 cs
  let cs ← expect? ':' cs
  let (_, cs) ← field? 2 0 59 cs
  let cs ← expect? ':' cs
  let (_, cs) ← field? 2 0 60 cs
  return skipFraction cs

def skipOffset (cs : List Char) : List Char :=
  match cs with
  | 'Z' :: rest => rest
  | 'z' :: rest => rest
  | _ =>
    match sign? cs with
    | (some _, rest) =>
      let found : Option (List Char) := do
        let (_, rest) ← field? 2 0 23 rest
        let rest ← expect? ':' rest
        let (_, rest) ← field? 2 0 59 rest
        return rest
      found.getD cs
    | _ => cs

def skipTime : List Char → List Char
  | c :: cs =>
    if c = 'T' ∨ c = 't' ∨ c = ' ' then ((time? cs).map skipOffset).getD (c :: cs) else c :: cs
  | [] => []

def moment? (cs : List Char) : Option (Found Toml) :=
  (((date? cs).map skipTime).or (time? cs)).map fun rest =>
    (.moment (String.ofList (cs.take (cs.length - rest.length))), rest)

end FlightBlocks.Toml
