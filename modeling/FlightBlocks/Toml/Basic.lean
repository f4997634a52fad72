/-!
TOML values. What is no integer, text or truth value is of no use to a reader of settings, so a
float and a moment are kept as they are written.
-/

namespace FlightBlocks

inductive Toml where
  | text (s : String)
  | integer (i : Int)
  | float (written : String)
  | boolean (b : Bool)
  | moment (written : String)
  | array (items : List Toml)
  | table (members : List (String × Toml))
  deriving Repr, Inhabited

/-- What a reader of TOML finds at the start of a text, and what follows it. -/
abbrev Found (α : Type) := α × List Char

namespace Toml

def isBlank (c : Char) : Bool := c == ' ' || c == '\t'

def skipBlanks (cs : List Char) : List Char := cs.dropWhile isBlank

def isPrintable (c : Char) : Bool := c == '\t' || (c.toNat ≥ 0x20 && c.toNat != 0x7F)

def newline? : List Char → Option (List Char)
  | '\n' :: cs => some cs
  | '\r' :: '\n' :: cs => some cs
  | _ => none

/-- Skips blanks, line ends and comments. A comment that holds something else stops there. -/
def skipLines (inComment : Bool) : List Char → List Char
  | [] => []
  | '\r' :: '\n' :: cs => skipLines false cs
  | '\n' :: cs => skipLines false cs
  | c :: cs =>
    if inComment then (if isPrintable c then skipLines true cs else c :: cs)
    else if isBlank c then skipLines false cs
    else if c == '#' then skipLines true cs
    else c :: cs

def endLine? (cs : List Char) : Option (List Char) :=
  let cs := match skipBlanks cs with
    | '#' :: cs => cs.dropWhile isPrintable
    | cs => cs
  if cs.isEmpty then some [] else newline? cs

end Toml

end FlightBlocks
