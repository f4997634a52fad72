import FlightBlocks.Toml.Number
import FlightBlocks.Toml.Table
import FlightBlocks.Toml.Text
/-!
TOML keys and values. An array may run over lines and have a comma at its end; a table in braces
may not. `n` bounds the characters that are left, and `depth` the arrays and braces still allowed
inside one another.
-/

namespace FlightBlocks.Toml

/-- One more than the parts that a key may have, and than the levels that a value may have. -/
def nestingLimit : Nat := 80

def isBareKey (c : Char) : Bool := c.isAlphanum || c == '_' || c == '-'

def simpleKey? (cs : List Char) : Option (Found String) :=
  match cs.takeWhile isBareKey with
  | [] => lineText? cs
  | name => some (String.ofList name, cs.dropWhile isBareKey)

def keyParts? : Nat → List Char → Option (Found (List String))
  | 0, _ => none
  | n + 1, cs => do
    let (name, cs) ← simpleKey? (skipBlanks cs)
    match skipBlanks cs with
    | '.' :: cs => (keyParts? n cs).map fun (names, cs) => (name :: names, cs)
    | cs => return ([name], cs)

def key? (cs : List Char) : Option (Found (List String)) :=
  (keyParts? (cs.length + 1) cs).filter fun (names, _) => names.length < nestingLimit

def inlineTable? (pairs : List (List String × Toml)) : Option Toml :=
  (pairs.foldlM (fun members pair => Members.assign pair.2 pair.1 members) []).map fun members =>
    .table (membersToToml members)

mutual

def value? : Nat → Nat → List Char → Option (Found Toml)
  | 0, _, _ => none
  | n + 1, depth, cs =>
    match cs with
    | [] => none
    | '[' :: cs =>
      match depth with
      | 0 => none
      | depth + 1 => (itemsFrom? n depth cs).map fun (vs, cs) => (.array vs, cs)
    | '\x7b' :: cs =>
      match depth with
      | 0 => none
      | depth + 1 =>
        match skipBlanks cs with
        | '\x7d' :: cs => some (.table [], cs)
        | cs => (pairsFrom? n depth cs).bind fun (ps, cs) => (inlineTable? ps).map fun v => (v, cs)
    | 't' :: 'r' :: 'u' :: 'e' :: cs => some (.boolean true, cs)
    | 'f' :: 'a' :: 'l' :: 's' :: 'e' :: cs => some (.boolean false, cs)
    | '"' :: _ => (text? cs).map fun (s, cs) => (.text s, cs)
    | '\'' :: _ => (text? cs).map fun (s, cs) => (.text s, cs)
    | cs => (moment? cs).or (number? cs)

def itemsFrom? : Nat → Nat → List Char → Option (Found (List Toml))
  | 0, _, _ => none
  | n + 1, depth, cs =>
    match skipLines false cs with
    | ']' :: cs => some ([], cs)
    | cs => do
      let (v, cs) ← value? n depth cs
      match skipLines false cs with
      | ',' :: cs => (itemsFrom? n depth cs).map fun (vs, cs) => (v :: vs, cs)
      | ']' :: cs => return ([v], cs)
      | _ => none

def pairsFrom? : Nat → Nat → List Char → Option (Found (List (List String × Toml)))
  | 0, _, _ => none
  | n + 1, depth, cs => do
    let (key, cs) ← key? cs
    let cs ← expect? '=' cs
    let (v, cs) ← value? n depth (skipBlanks cs)
    match skipBlanks cs with
    | ',' :: cs => (pairsFrom? n depth cs).map fun (ps, cs) => ((key, v) :: ps, cs)
    | '\x7d' :: cs => return ([(key, v)], cs)
    | _ => none

end

end FlightBlocks.Toml
