import FlightBlocks.Shell.Number
/-!
The rights that new files do not get: as a number in base 8, or as clauses that give and take rights
of the owner, the group and the others.
-/

namespace FlightBlocks.Shell.Mask

def all (right : Nat) : Nat := right * 73

def users : List Char → Nat
  | [] => 0
  | 'u' :: cs => 7 * 64 ||| users cs
  | 'g' :: cs => 7 * 8 ||| users cs
  | 'o' :: cs => 7 ||| users cs
  | _ :: cs => 511 ||| users cs

def rights? (allowed : Nat) (c : Char) : Option Nat :=
  if c = 'r' then some (all 4)
  else if c = 'w' then some (all 2)
  else if c = 'x' then some (all 1)
  else if c = 'X' then some (if allowed &&& all 1 = 0 then 0 else all 1)
  else if c = 'u' then some (all (allowed / 64 % 8))
  else if c = 'g' then some (all (allowed / 8 % 8))
  else if c = 'o' then some (all (allowed % 8))
  else if c = 's' ∨ c = 't' then some 0
  else none

def without (allowed taken : Nat) : Nat := allowed &&& (511 ^^^ taken)

/-- The rights after the signs of a clause, behind the letters for its users. -/
def signs (who : Nat) : Nat → Nat → List Char → Option Nat
  | 0, _, _ => none
  | _, allowed, [] => some allowed
  | n + 1, allowed, sign :: cs =>
    let isRight (c : Char) : Bool := (rights? allowed c).isSome
    let rights := (cs.takeWhile isRight).foldl (fun g c => g ||| (rights? allowed c).getD 0) 0
    let given := rights &&& who
    let rest := cs.dropWhile isRight
    if sign = '+' then signs who n (allowed ||| given) rest
    else if sign = '-' then signs who n (without allowed given) rest
    else if sign = '=' then signs who n (without allowed who ||| given) rest
    else none

def clause (allowed : Nat) (cs : List Char) : Option Nat :=
  let letters := cs.takeWhile "ugoa".toList.contains
  let rest := cs.drop letters.length
  let who := if letters.isEmpty then 511 else users letters
  if rest.isEmpty then none else signs who (rest.length + 1) allowed rest

def clauses (cs : List Char) : List (List Char) := (cs.splitOn ',').filter fun c => !c.isEmpty

def ofText? (mask : Nat) (s : String) : Option Nat :=
  ((clauses s.toList).foldlM clause (without 511 mask)).map (without 511)

def text (mask : Nat) : String :=
  let digits := Nat.toDigits 8 mask
  String.ofList (List.replicate (4 - digits.length) '0' ++ digits)

def rightsText (mask : Nat) : String :=
  let one (n : Nat) : String :=
    (if n &&& 4 != 0 then "r" else "") ++ (if n &&& 2 != 0 then "w" else "") ++
      (if n &&& 1 != 0 then "x" else "")
  let allowed := without 511 mask
  "u=" ++ one (allowed / 64 % 8) ++ ",g=" ++ one (allowed / 8 % 8) ++ ",o=" ++ one (allowed % 8)

end FlightBlocks.Shell.Mask
