import FlightBlocks.Json.Basic
import FlightBlocks.Text.Hex
/-!
JSON text cut into tokens, one character at a time. A number or a word ends at the first character
that cannot belong to it, and that character is then read on its own.
-/

namespace FlightBlocks

inductive JsonToken where
  | beginArray
  | endArray
  | beginObject
  | endObject
  | comma
  | colon
  | null
  | bool (b : Bool)
  | number (n : Numeral)
  | text (marks : List JsonMark)
  deriving DecidableEq, Repr

namespace Numeral

def isDigit (c : Char) : Bool := '0' ≤ c && c ≤ '9'

def digitValue (c : Char) : Nat := c.toNat - 48

def digits? (cs : List Char) : Option (List Nat × List Char) :=
  match cs.takeWhile isDigit with
  | [] => none
  | ds => some (ds.map digitValue, cs.dropWhile isDigit)

def whole? (cs : List Char) : Option (List Nat × List Char) :=
  match digits? cs with
  | some (0 :: _ :: _, _) => none
  | found => found

def fraction? : List Char → Option (Option (List Nat) × List Char)
  | '.' :: cs => (digits? cs).map fun (ds, rest) => (some ds, rest)
  | cs => some (none, cs)

/-- The sign of an exponent is kept as "is negative". -/
def exponent? : List Char → Option (Option (Bool × List Nat) × List Char)
  | c :: cs =>
    if c = 'e' ∨ c = 'E' then
      match cs with
      | '-' :: cs' => (digits? cs').map fun (ds, rest) => (some (true, ds), rest)
      | '+' :: cs' => (digits? cs').map fun (ds, rest) => (some (false, ds), rest)
      | cs' => (digits? cs').map fun (ds, rest) => (some (false, ds), rest)
    else some (none, c :: cs)
  | [] => some (none, [])

def unsigned? (negative : Bool) (cs : List Char) : Option Numeral := do
  let (whole, cs) ← whole? cs
  let (fraction, cs) ← fraction? cs
  let (exponent, cs) ← exponent? cs
  if cs.isEmpty then some ⟨negative, whole, fraction, exponent⟩ else none

def ofChars? : List Char → Option Numeral
  | '-' :: cs => unsigned? true cs
  | cs => unsigned? false cs

end Numeral

namespace JsonToken

/-- Where the scan stands; what has been read of a token is kept in reverse. -/
inductive Mode where
  | between
  | numeral (read : List Char)
  | word (read : List Char)
  | text (read : List JsonMark)
  | escape (read : List JsonMark)
  | hex (read : List JsonMark) (code left : Nat)
  deriving DecidableEq, Repr

def isSpace (c : Char) : Bool := c = ' ' || c = '\t' || c = '\n' || c = '\r'

def inNumeral (c : Char) : Bool :=
  Numeral.isDigit c || c = '-' || c = '+' || c = '.' || c = 'e' || c = 'E'

def inWord (c : Char) : Bool := 'a' ≤ c && c ≤ 'z'

def ofWord? (cs : List Char) : Option JsonToken :=
  if cs = "null".toList then some .null
  else if cs = "true".toList then some (.bool true)
  else if cs = "false".toList then some (.bool false)
  else none

def escaped? (c : Char) : Option Char :=
  if c = '"' ∨ c = '\\' ∨ c = '/' then some c
  else if c = 'b' then some '\x08'
  else if c = 'f' then some '\x0c'
  else if c = 'n' then some '\n'
  else if c = 'r' then some '\r'
  else if c = 't' then some '\t'
  else none

def start (c : Char) : Option (Mode × Option JsonToken) :=
  if isSpace c then some (.between, none)
  else if c = '[' then some (.between, some .beginArray)
  else if c = ']' then some (.between, some .endArray)
  else if c = '{' then some (.between, some .beginObject)
  else if c = '}' then some (.between, some .endObject)
  else if c = ',' then some (.between, some .comma)
  else if c = ':' then some (.between, some .colon)
  else if c = '"' then some (.text [], none)
  else if c = '-' ∨ Numeral.isDigit c then some (.numeral [c], none)
  else if inWord c then some (.word [c], none)
  else none

def push (token : Option JsonToken) (found : List JsonToken) : List JsonToken :=
  match token with
  | none => found
  | some t => t :: found

def step (mode : Mode) (found : List JsonToken) (c : Char) : Option (Mode × List JsonToken) :=
  match mode with
  | .between => (start c).map fun (m, t) => (m, push t found)
  | .numeral read =>
    if inNumeral c then some (.numeral (c :: read), found)
    else do
      let n ← Numeral.ofChars? read.reverse
      let (m, t) ← start c
      return (m, push t (.number n :: found))
  | .word read =>
    if inWord c then some (.word (c :: read), found)
    else do
      let w ← ofWord? read.reverse
      let (m, t) ← start c
      return (m, push t (w :: found))
  | .text read =>
    if c = '"' then some (.between, .text read.reverse :: found)
    else if c = '\\' then some (.escape read, found)
    else if c.toNat < 32 then none
    else some (.text (.char c :: read), found)
  | .escape read =>
    if c = 'u' then some (.hex read 0 4, found)
    else (escaped? c).map fun e => (.text (.char e :: read), found)
  | .hex read code left => do
    let d ← Text.hexValue? c
    let code := code * 16 + d
    return (if left ≤ 1 then .text (.code code :: read) else .hex read code (left - 1), found)

def finish (mode : Mode) (found : List JsonToken) : Option (List JsonToken) :=
  match mode with
  | .between => some found.reverse
  | .numeral read => (Numeral.ofChars? read.reverse).map fun n => (.number n :: found).reverse
  | .word read => (ofWord? read.reverse).map fun w => (w :: found).reverse
  | _ => none

def scan (mode : Mode) (found : List JsonToken) : List Char → Option (List JsonToken)
  | [] => finish mode found
  | c :: cs =>
    match step mode found c with
    | none => none
    | some (mode', found') => scan mode' found' cs

def ofString? (s : String) : Option (List JsonToken) := scan .between [] s.toList

end JsonToken

end FlightBlocks
