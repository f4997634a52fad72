/-!
Patterns: a star stands for any text, a question mark for any character, and brackets for one of a
set. A character that was quoted stands for itself. All texts are byte texts.
-/

namespace FlightBlocks.Shell

structure Glyph where
  char : Char
  quoted : Bool
  deriving DecidableEq, Repr

namespace Pattern

inductive Item where
  | range (first last : Char)
  | kind (name : String)
  deriving DecidableEq, Repr

inductive Atom where
  | one (c : Char)
  | any
  | star
  | among (negated : Bool) (items : List Item)
  deriving DecidableEq, Repr

def isPunctuation (c : Char) : Bool := '!' ≤ c && c ≤ '~' && !c.isAlphanum

def isOfKind (name : String) (c : Char) : Bool :=
  if name == "alpha" then c.isAlpha
  else if name == "digit" then c.isDigit
  else if name == "alnum" then c.isAlphanum
  else if name == "upper" then c.isUpper
  else if name == "lower" then c.isLower
  else if name == "space" then " \t\n\x0b\x0c\r".toList.contains c
  else if name == "blank" then c == ' ' || c == '\t'
  else if name == "punct" then isPunctuation c
  else if name == "print" then ' ' ≤ c && c ≤ '~'
  else if name == "graph" then '!' ≤ c && c ≤ '~'
  else if name == "cntrl" then c < ' ' || c == '\x7f'
  else if name == "xdigit" then
    c.isDigit || ('a' ≤ c && c ≤ 'f') || ('A' ≤ c && c ≤ 'F')
  else false

def kinds : List String :=
  ["alpha", "digit", "alnum", "upper", "lower", "space", "blank", "punct", "print", "graph",
    "cntrl", "xdigit"]

def Item.holds (c : Char) : Item → Bool
  | .range first last => first ≤ c && c ≤ last
  | .kind name => isOfKind name c

def Atom.holds (c : Char) : Atom → Bool
  | .one d => c == d
  | .any => true
  | .star => false
  | .among negated items => items.any (Item.holds c) != negated

/-- What is left of a text when none, one or more characters are taken from its beginning. -/
def endings : List Char → List (List Char)
  | [] => [[]]
  | c :: cs => (c :: cs) :: endings cs

def isMatch : List Atom → List Char → Bool
  | [], cs => cs.isEmpty
  | .star :: p, cs => (endings cs).any fun rest => isMatch p rest
  | atom :: p, cs =>
    match cs with
    | [] => false
    | c :: rest => atom.holds c && isMatch p rest

def kind? (gs : List Glyph) : Option (Item × List Glyph) :=
  match gs with
  | ⟨':', false⟩ :: gs =>
    let name := (gs.takeWhile fun g => g.char != ':').map Glyph.char
    match gs.drop name.length with
    | ⟨':', _⟩ :: ⟨']', _⟩ :: rest =>
      let name := String.ofList name
      if kinds.contains name then some (.kind name, rest) else none
    | _ => none
  | _ => none

def member? : List Glyph → Option (Char × List Glyph)
  | ⟨'\\', false⟩ :: g :: gs => some (g.char, gs)
  | g :: gs => some (g.char, gs)
  | [] => none

def items? : Nat → Bool → List Glyph → Option (List Item × List Glyph)
  | 0, _, _ => none
  | n + 1, first, gs =>
    match gs with
    | [] => none
    | g :: rest =>
      if g == ⟨']', false⟩ && !first then some ([], rest)
      else
        match if g == ⟨'[', false⟩ then kind? rest else none with
        | some (item, rest) =>
          (items? n false rest).map fun (items, rest) => (item :: items, rest)
        | none => do
          let (low, rest) ← member? gs
          match rest with
          | ⟨'-', false⟩ :: next :: more =>
            if next == ⟨']', false⟩ then
              let (items, rest) ← items? n false rest
              return (.range low low :: items, rest)
            else
              let (high, rest) ← member? (next :: more)
              let (items, rest) ← items? n false rest
              return (.range low high :: items, rest)
          | _ =>
            let (items, rest) ← items? n false rest
            return (.range low low :: items, rest)

def isNegation (g : Glyph) : Bool := g == ⟨'!', false⟩

def set? (gs : List Glyph) : Option (Atom × List Glyph) :=
  let negated := gs.head?.any isNegation
  (items? (gs.length + 1) true (if negated then gs.drop 1 else gs)).map fun (items, rest) =>
    (.among negated items, rest)

def atoms : Nat → List Glyph → List Atom
  | 0, _ => []
  | n + 1, gs =>
    match gs with
    | [] => []
    | ⟨'*', false⟩ :: rest => .star :: atoms n rest
    | ⟨'?', false⟩ :: rest => .any :: atoms n rest
    | ⟨'\\', false⟩ :: g :: rest => .one g.char :: atoms n rest
    | ⟨'[', false⟩ :: rest =>
      match set? rest with
      | some (atom, rest) => atom :: atoms n rest
      | none => .one '[' :: atoms n rest
    | g :: rest => .one g.char :: atoms n rest

def ofGlyphs (gs : List Glyph) : List Atom := atoms gs.length gs

def ofChars (cs : List Char) : List Atom := cs.map .one

def isPattern (gs : List Glyph) : Bool :=
  gs.any fun g => !g.quoted && "*?[".toList.contains g.char

/-- What stands between the texts of a row. -/
def between : Char := '\x00'

def firstText (row : List Char) : List Char := row.takeWhile (· != between)

/-- A row without the part at its beginning that a pattern stands for. Only the first text is looked
at; the shortest part ends in it. -/
def trimStart (p : List Atom) (longest : Bool) (row : List Char) : List Char :=
  let cuts := if longest then (List.range (row.length + 1)).reverse
    else List.range ((firstText row).length + 1)
  match cuts.find? fun n => isMatch p (firstText (row.take n)) with
  | some n => row.drop n
  | none => row

/-- A row without all from the part on that a pattern stands for. The part reaches to the end of its
text; the longest one is in the first text, and the shortest one as near to the end as can be. -/
def trimEnd (p : List Atom) (longest : Bool) (row : List Char) : List Char :=
  let cuts := if longest then List.range ((firstText row).length + 1)
    else (List.range (row.length + 1)).reverse
  match cuts.find? fun n => isMatch p (firstText (row.drop n)) with
  | some n => row.take n
  | none => row

end Pattern

end FlightBlocks.Shell
