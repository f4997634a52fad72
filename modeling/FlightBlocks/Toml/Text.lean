import FlightBlocks.Text.Hex
import FlightBlocks.Toml.Basic
/-!
TOML texts: between double quotes, where a backslash escapes, or between single ones, where it does
not; between three of either a text may run over lines. `n` bounds the characters that are left.
-/

namespace FlightBlocks.Toml

def code? (digits : Nat) (cs : List Char) : Option (Found Char) := do
  let values ← (cs.take digits).mapM Text.hexValue?
  let code := values.foldl (fun n d => n * 16 + d) 0
  if values.length = digits ∧ code.isValidChar then some (Char.ofNat code, cs.drop digits) else none

def escape? : List Char → Option (Found Char)
  | 'b' :: cs => some ('\x08', cs)
  | 'f' :: cs => some ('\x0c', cs)
  | 'n' :: cs => some ('\n', cs)
  | 'r' :: cs => some ('\r', cs)
  | 't' :: cs => some ('\t', cs)
  | '"' :: cs => some ('"', cs)
  | '\\' :: cs => some ('\\', cs)
  | 'u' :: cs => code? 4 cs
  | 'U' :: cs => code? 8 cs
  | _ => none

def plain? (quote : Char) : Nat → List Char → Option (Found (List Char))
  | 0, _ => none
  | n + 1, cs =>
    match cs with
    | [] => none
    | c :: cs =>
      if c = quote then some ([], cs)
      else if c = '\\' ∧ quote = '"' then do
        let (e, cs) ← escape? cs
        let (rest, cs) ← plain? quote n cs
        return (e :: rest, cs)
      else if isPrintable c then (plain? quote n cs).map fun (rest, cs) => (c :: rest, cs)
      else none

def endsLine (cs : List Char) : Bool := (newline? (skipBlanks cs)).isSome

def skipBreaks : Nat → List Char → List Char
  | 0, cs => cs
  | n + 1, cs =>
    match newline? (skipBlanks cs) with
    | some cs => skipBreaks n cs
    | none => skipBlanks cs

/-- What follows the three quotes that end a text. Up to two more before them belong to it. -/
def closing (quote : Char) : List Char → List Char × List Char
  | a :: b :: cs =>
    if a = quote then (if b = quote then ([quote, quote], cs) else ([quote], b :: cs))
    else ([], a :: b :: cs)
  | [a] => if a = quote then ([quote], []) else ([], [a])
  | [] => ([], [])

def block? (quote : Char) : Nat → List Char → Option (Found (List Char))
  | 0, _ => none
  | n + 1, cs =>
    if [quote, quote, quote].isPrefixOf cs then some (closing quote (cs.drop 3))
    else
      match newline? cs with
      | some cs => (block? quote n cs).map fun (rest, cs) => ('\n' :: rest, cs)
      | none =>
        match cs with
        | [] => none
        | c :: cs =>
          if c = '\\' ∧ quote = '"' then
            if endsLine cs then block? quote n (skipBreaks n cs)
            else do
              let (e, cs) ← escape? cs
              let (rest, cs) ← block? quote n cs
              return (e :: rest, cs)
          else if isPrintable c then (block? quote n cs).map fun (rest, cs) => (c :: rest, cs)
          else none

def lineText? : List Char → Option (Found String)
  | c :: cs =>
    if c = '"' ∨ c = '\'' then
      (plain? c (cs.length + 1) cs).map fun (chars, cs) => (String.ofList chars, cs)
    else none
  | [] => none

/-- A text that may run over lines. A line end right after the opening quotes is left out. -/
def text? (cs : List Char) : Option (Found String) :=
  match cs with
  | a :: b :: c :: rest =>
    if a = b ∧ b = c ∧ (a = '"' ∨ a = '\'') then
      (block? a (rest.length + 1) ((newline? rest).getD rest)).map fun (chars, cs) =>
        (String.ofList chars, cs)
    else lineText? cs
  | _ => lineText? cs

end FlightBlocks.Toml
