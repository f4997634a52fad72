/-!
Integers of 64 bits as texts give them: with blanks and a sign in front, and with a base that the
first digits tell.
-/

namespace FlightBlocks.Shell.Number

def least : Int := Int64.minValue.toInt

def greatest : Int := Int64.maxValue.toInt

def wrap (n : Int) : Int := Int.bmod n UInt64.size

def digit? (base : Nat) (c : Char) : Option Nat :=
  let n :=
    if c.isDigit then c.toNat - 48
    else if 'a' ≤ c && c ≤ 'z' then c.toNat - 87
    else if 'A' ≤ c && c ≤ 'Z' then c.toNat - 55
    else base
  if n < base then some n else none

def digits (base : Nat) (cs : List Char) : List Char := cs.takeWhile fun c => (digit? base c).isSome

def valueOf (base : Nat) (cs : List Char) : Nat :=
  cs.foldl (fun n c => n * base + (digit? base c).getD 0) 0

def baseOf : List Char → Nat × List Char
  | '0' :: x :: d :: cs =>
    if (x == 'x' || x == 'X') && (digit? 16 d).isSome then (16, d :: cs)
    else (8, '0' :: x :: d :: cs)
  | '0' :: cs => (8, '0' :: cs)
  | cs => (10, cs)

def isSpace (c : Char) : Bool := " \t\n\x0b\x0c\r".toList.contains c

structure Scan where
  value : Int
  rest : List Char
  found : Bool

def scan (base : Option Nat) (cs : List Char) : Scan :=
  let start := cs.dropWhile isSpace
  let (negative, body) := match start with
    | '-' :: body => (true, body)
    | '+' :: body => (false, body)
    | body => (false, body)
  let (b, body) := match base with
    | some b => (b, body)
    | none => baseOf body
  let ds := digits b body
  if ds.isEmpty then ⟨0, cs, false⟩
  else
    let n : Int := valueOf b ds
    ⟨if negative then -n else n, body.drop ds.length, true⟩

def isOutside (n : Int) : Bool := n < least || greatest < n

/-- A text that is a number, with blanks around it. Nothing counts as 0 where the number tells its
base. -/
def ofText? (base : Option Nat) (s : String) : Option Int :=
  let r := scan base s.toList
  if isOutside r.value || (base.isSome && !r.found) || !r.rest.all isSpace then none
  else some r.value

def natural? (s : String) : Option Nat :=
  match ofText? (some 10) s with
  | some n => if 0 ≤ n && n < (1 <<< 31 : Nat) then some n.toNat else none
  | none => none

end FlightBlocks.Shell.Number
