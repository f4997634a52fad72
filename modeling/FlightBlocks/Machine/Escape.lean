import FlightBlocks.Text.Hex
/-!
Backslash escapes in what `echo` and `printf` print. All texts are byte texts.
-/

namespace FlightBlocks.Escape

def octalValue? (c : Char) : Option Nat :=
  if '0' ≤ c ∧ c ≤ '7' then some (c.toNat - 48) else none

def number (digit? : Char → Option Nat) (base : Nat) : Nat → Nat → List Char → Nat × List Char
  | 0, n, cs => (n, cs)
  | _, n, [] => (n, [])
  | most + 1, n, c :: cs =>
    match digit? c with
    | none => (n, c :: cs)
    | some d => number digit? base most (n * base + d) cs

def byte (n : Nat) : Char := Char.ofNat (n % 256)

structure Dialect where
  /-- Whether a zero in front of an octal number is none of its three digits. -/
  extraZero : Bool
  hex : Bool
  ends : Bool
  deriving DecidableEq, Repr

def letters : List (Char × Nat) :=
  [('a', 7), ('b', 8), ('e', 27), ('f', 12), ('n', 10), ('r', 13), ('t', 9), ('v', 11),
    ('\\', 92)]

/-- One escape behind its backslash: what it stands for, and the rest; no rest ends the output. -/
def one (d : Dialect) : List Char → List Char × Option (List Char)
  | [] => (['\\'], some [])
  | c :: cs =>
    match letters.lookup c with
    | some n => ([byte n], some cs)
    | none =>
      if c = 'c' ∧ d.ends then ([], none)
      else if c = 'x' ∧ d.hex ∧ cs.head?.any (fun h => (Text.hexValue? h).isSome) then
        let (n, rest) := number Text.hexValue? 16 2 0 cs
        ([byte n], some rest)
      else if (octalValue? c).isSome then
        let digits := if c = '0' ∧ d.extraZero then cs else c :: cs
        let (n, rest) := number octalValue? 8 3 0 digits
        ([byte n], some rest)
      else (['\\'], some (c :: cs))

def expand (d : Dialect) : Nat → List Char → List Char × Bool
  | 0, _ => ([], false)
  | _, [] => ([], false)
  | n + 1, c :: cs =>
    if c = '\\' then
      match one d cs with
      | (text, none) => (text, true)
      | (text, some rest) =>
        let (more, ended) := expand d n rest
        (text ++ more, ended)
    else
      let (more, ended) := expand d n cs
      (c :: more, ended)

def expandText (d : Dialect) (s : String) : String × Bool :=
  let (cs, ended) := expand d s.length s.toList
  (String.ofList cs, ended)

end FlightBlocks.Escape
