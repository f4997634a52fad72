import FlightBlocks.Sequence.Declaration
/-!
The firmware header, which holds the declaration among text that is none of our business.
-/

namespace FlightBlocks

inductive PatchFault where
  | mismatch (pattern : String)
  | notDeclaration (text : String)
  deriving DecidableEq, Repr

def PatchFault.message : PatchFault → String
  | mismatch pattern => "no declaration matching " ++ pattern ++ " in template"
  | notDeclaration text => "replacement is not a sequence declaration: " ++ text

namespace Header

def default : String :=
  "#include <cstdint>\n\ntypedef enum \x7b\n    FORWARD,\n    RIGHT,\n    LEFT,\n    BACK,\n" ++
  "    NORMAL,\n    FLIP,\n\x7d Direction_t;\n\nDirection_t direction_sequence[] = \x7b\x7d;\n\n" ++
  "uint8_t MAX_STATES_NUM = sizeof(direction_sequence) / sizeof(direction_sequence[0]);\n"

def pattern : String :=
  "Direction_t\\s+direction_sequence\\[\\]\\s*=\\s*\\\x7b[^\x7d]*\\\x7d;"

def orDefault : Option String → String
  | none => default
  | some text => if text.isEmpty then default else text

/-- Puts `replacement`, a declaration, in the place of the first declaration of a header. -/
def patch (existing : Option String) (replacement : String) : Except PatchFault String :=
  if Declaration.isWhole replacement.toList then
    match Declaration.cut? (orDefault existing).toList with
    | none => .error (.mismatch pattern)
    | some cut => .ok (String.ofList (cut.before ++ replacement.toList ++ cut.after))
  else .error (.notDeclaration replacement)

end Header

end FlightBlocks
