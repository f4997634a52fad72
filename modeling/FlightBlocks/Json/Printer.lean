import FlightBlocks.Json.Basic
import FlightBlocks.Text.Hex
/-!
JSON written out: on many lines with two blanks for each level, or on one line without blanks.
-/

namespace FlightBlocks

namespace JsonMark

def write : JsonMark → List Char
  | .char c =>
    if c = '"' then ['\\', '"']
    else if c = '\\' then ['\\', '\\']
    else if c = '\x08' then ['\\', 'b']
    else if c = '\t' then ['\\', 't']
    else if c = '\n' then ['\\', 'n']
    else if c = '\x0c' then ['\\', 'f']
    else if c = '\r' then ['\\', 'r']
    else if c.toNat < 32 then
      ['\\', 'u', '0', '0', Text.hexDigit (c.toNat / 16), Text.hexDigit (c.toNat % 16)]
    else [c]
  | .code u =>
    ['\\', 'u', Text.hexDigit (u / 4096 % 16), Text.hexDigit (u / 256 % 16),
      Text.hexDigit (u / 16 % 16), Text.hexDigit (u % 16)]

def quote (marks : List JsonMark) : List Char := '"' :: marks.flatMap write ++ ['"']

end JsonMark

namespace Numeral

def writeDigits (digits : List Nat) : List Char := digits.map fun d => Char.ofNat (48 + d)

def write (n : Numeral) : List Char :=
  (if n.negative then ['-'] else []) ++ writeDigits n.whole ++
    (match n.fraction with
      | none => []
      | some ds => '.' :: writeDigits ds) ++
    (match n.exponent with
      | none => []
      | some (negative, ds) => 'e' :: (if negative then ['-'] else []) ++ writeDigits ds)

end Numeral

namespace Json

def margin (level : Nat) : List Char := List.replicate (2 * level) ' '

mutual

/-- The value on many lines, when its own line is indented to `level`. -/
def layout (level : Nat) : Json → List Char
  | .null => "null".toList
  | .bool true => "true".toList
  | .bool false => "false".toList
  | .number n => n.write
  | .text t => JsonMark.quote t
  | .array [] => ['[', ']']
  | .array (v :: vs) =>
    '[' :: '\n' :: margin (level + 1) ++ layout (level + 1) v ++ layoutItems (level + 1) vs ++
      '\n' :: margin level ++ [']']
  | .object [] => ['{', '}']
  | .object ((k, v) :: ms) =>
    '{' :: '\n' :: margin (level + 1) ++ JsonMark.quote k ++ ':' :: ' ' :: layout (level + 1) v ++
      layoutMembers (level + 1) ms ++ '\n' :: margin level ++ ['}']

def layoutItems (level : Nat) : List Json → List Char
  | [] => []
  | v :: vs => ',' :: '\n' :: margin level ++ layout level v ++ layoutItems level vs

def layoutMembers (level : Nat) : List (List JsonMark × Json) → List Char
  | [] => []
  | (k, v) :: ms =>
    ',' :: '\n' :: margin level ++ JsonMark.quote k ++ ':' :: ' ' :: layout level v ++
      layoutMembers level ms

end

def pretty (v : Json) : String := String.ofList (layout 0 v)

mutual

def line : Json → List Char
  | .null => "null".toList
  | .bool true => "true".toList
  | .bool false => "false".toList
  | .number n => n.write
  | .text t => JsonMark.quote t
  | .array [] => ['[', ']']
  | .array (v :: vs) => '[' :: line v ++ lineItems vs ++ [']']
  | .object [] => ['{', '}']
  | .object ((k, v) :: ms) => '{' :: JsonMark.quote k ++ ':' :: line v ++ lineMembers ms ++ ['}']

def lineItems : List Json → List Char
  | [] => []
  | v :: vs => ',' :: line v ++ lineItems vs

def lineMembers : List (List JsonMark × Json) → List Char
  | [] => []
  | (k, v) :: ms => ',' :: JsonMark.quote k ++ ':' :: line v ++ lineMembers ms

end

def compact (v : Json) : String := String.ofList (line v)

end Json

end FlightBlocks
