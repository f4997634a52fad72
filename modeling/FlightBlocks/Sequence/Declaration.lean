import FlightBlocks.Sequence.Literal
import FlightBlocks.Text.Blank
/-!
Finding the sequence declaration in a header. A declaration is the type, white space, the array's
name with its brackets, an equals sign between optional white space, and a body in braces with a
semicolon; the body ends at the first closing brace. The leftmost declaration counts.
-/

namespace FlightBlocks.Declaration

def after? (word : List Char) (cs : List Char) : Option (List Char) :=
  if word.isPrefixOf cs then some (cs.drop word.length) else none

def skipBlanks (cs : List Char) : List Char := cs.dropWhile Text.isBlank

def opening : List Char := sequenceType.toList

def arrayName : List Char := sequenceName.toList ++ ['[', ']']

/-- What follows a declaration that `cs` begins with. -/
def rest? (cs : List Char) : Option (List Char) := do
  let cs ← after? opening cs
  let blanks := cs.takeWhile Text.isBlank
  if blanks.isEmpty then none
  let cs ← after? arrayName (skipBlanks cs)
  let cs ← after? ['='] (skipBlanks cs)
  let cs ← after? ['{'] (skipBlanks cs)
  after? ['}', ';'] (cs.dropWhile (· != '}'))

structure Cut where
  before : List Char
  declaration : List Char
  after : List Char
  deriving DecidableEq, Repr

def cut? : List Char → Option Cut
  | [] => none
  | c :: cs =>
    match rest? (c :: cs) with
    | some rest => some ⟨[], (c :: cs).take (cs.length + 1 - rest.length), rest⟩
    | none => (cut? cs).map fun cut => { cut with before := c :: cut.before }

def utf8Length (cs : List Char) : Nat := cs.foldr (fun c length => c.utf8Size + length) 0

/-- The byte offsets where the first declaration begins and ends. -/
def range? (text : String) : Option (Nat × Nat) :=
  (cut? text.toList).map fun cut =>
    (utf8Length cut.before, utf8Length cut.before + utf8Length cut.declaration)

def isWhole (cs : List Char) : Bool :=
  match cut? cs with
  | none => false
  | some cut => cut.before.isEmpty && cut.after.isEmpty

end FlightBlocks.Declaration
